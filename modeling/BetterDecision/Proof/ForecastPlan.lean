import BetterDecision.Model.ForecastPlan

/-!
# Nothing is planned twice

Three writers fill a plan, and each asks what the plan already holds before it adds an
item. `Tracks` says that the sets they ask are what the plan holds; `Settled` says of a
group, once it has been considered, why nothing more will come of it. The second run of
a call finds every group settled, and that is idempotence.

A refresh populates with a snapshot taken before its delete, so its second run asks a
different snapshot. `considerGroup_congr` is why that makes no difference.
-/

namespace BetterDecision

/-! ## What a plan holds -/

section Holds

variable (db : Db) (orgId : Nat)

/-- The items plan the master of `k` itself. -/
def MasterPlanned (items : List ForecastPlanItem) (k : ItemKey) : Prop :=
  ∃ i ∈ items, masterOf db orgId i.categoryId = i.categoryId ∧ i.key = k

/-- The items plan some subcategory under the master of `k`. -/
def SubPlanned (items : List ForecastPlanItem) (k : ItemKey) : Prop :=
  ∃ i ∈ items, masterOf db orgId i.categoryId ≠ i.categoryId ∧ (masterOf db orgId i.categoryId, i.type) = k

/-- A planned item for a master category and a generated one for one of its
subcategories, of the same type. -/
def DoublePlanned (items : List ForecastPlanItem) : Prop :=
  ∃ i ∈ items, ∃ s ∈ items, masterOf db orgId i.categoryId = i.categoryId ∧
    masterOf db orgId s.categoryId = i.categoryId ∧ s.categoryId ≠ i.categoryId ∧
    s.type = i.type ∧ s.source ≠ .manual

/-- The sets of the guard are what the plan and the run so far hold. -/
structure Tracks (items : List ForecastPlanItem) (st : PopulateState) : Prop where
  keys : ∀ k, k ∈ st.existingKeys ↔ ∃ i ∈ items ++ st.out, i.key = k
  master : ∀ k, k ∈ st.claimedMaster ↔ MasterPlanned db orgId (items ++ st.out) k
  sub : ∀ k, k ∈ st.claimedSub ↔ SubPlanned db orgId (items ++ st.out) k

end Holds

section Populate

variable {db : Db} {orgId : Nat}

theorem masterPlanned_append {items more : List ForecastPlanItem} {k : ItemKey} :
    MasterPlanned db orgId (items ++ more) k ↔
      MasterPlanned db orgId items k ∨ MasterPlanned db orgId more k := by
  simp only [MasterPlanned, List.mem_append, or_and_right, exists_or]

theorem subPlanned_append {items more : List ForecastPlanItem} {k : ItemKey} :
    SubPlanned db orgId (items ++ more) k ↔ SubPlanned db orgId items k ∨ SubPlanned db orgId more k := by
  simp only [SubPlanned, List.mem_append, or_and_right, exists_or]

theorem masterPlanned_singleton {i : ForecastPlanItem} {k : ItemKey} :
    MasterPlanned db orgId [i] k ↔ masterOf db orgId i.categoryId = i.categoryId ∧ i.key = k := by
  simp [MasterPlanned]

theorem subPlanned_singleton {i : ForecastPlanItem} {k : ItemKey} :
    SubPlanned db orgId [i] k ↔
      masterOf db orgId i.categoryId ≠ i.categoryId ∧ (masterOf db orgId i.categoryId, i.type) = k := by
  simp [SubPlanned]

/-! ## The guard's sets -/

theorem claim_of_master {st : PopulateState} {key : ItemKey} (h : key.1 = masterOf db orgId key.1) :
    st.claim db orgId key = { st with claimedMaster := key :: st.claimedMaster } := by
  unfold PopulateState.claim
  dsimp only
  rw [if_pos h, ← h]

theorem claim_of_sub {st : PopulateState} {key : ItemKey} (h : key.1 ≠ masterOf db orgId key.1) :
    st.claim db orgId key = { st with claimedSub := (masterOf db orgId key.1, key.2) :: st.claimedSub } := by
  unfold PopulateState.claim
  dsimp only
  rw [if_neg h]

@[simp] theorem claim_out (st : PopulateState) (key : ItemKey) : (st.claim db orgId key).out = st.out := by
  by_cases h : key.1 = masterOf db orgId key.1
  · rw [claim_of_master h]
  · rw [claim_of_sub h]

@[simp] theorem claim_existingKeys (st : PopulateState) (key : ItemKey) :
    (st.claim db orgId key).existingKeys = st.existingKeys := by
  by_cases h : key.1 = masterOf db orgId key.1
  · rw [claim_of_master h]
  · rw [claim_of_sub h]

theorem mem_claim_master {st : PopulateState} {i : ForecastPlanItem} {k : ItemKey} :
    k ∈ (st.claim db orgId i.key).claimedMaster ↔ k ∈ st.claimedMaster ∨ MasterPlanned db orgId [i] k := by
  rw [masterPlanned_singleton]
  by_cases h : i.key.1 = masterOf db orgId i.key.1
  · have h' : masterOf db orgId i.categoryId = i.categoryId := h.symm
    rw [claim_of_master h, List.mem_cons, or_comm, eq_comm]
    simp [h']
  · have h' : masterOf db orgId i.categoryId ≠ i.categoryId := fun e => h e.symm
    rw [claim_of_sub h]
    simp [h']

theorem mem_claim_sub {st : PopulateState} {i : ForecastPlanItem} {k : ItemKey} :
    k ∈ (st.claim db orgId i.key).claimedSub ↔ k ∈ st.claimedSub ∨ SubPlanned db orgId [i] k := by
  rw [subPlanned_singleton]
  by_cases h : i.key.1 = masterOf db orgId i.key.1
  · have h' : masterOf db orgId i.categoryId = i.categoryId := h.symm
    rw [claim_of_master h]
    simp [h']
  · have h' : masterOf db orgId i.categoryId ≠ i.categoryId := fun e => h e.symm
    rw [claim_of_sub h, List.mem_cons, or_comm, eq_comm]
    exact or_congr_right ⟨fun e => ⟨h', e⟩, fun e => e.2⟩

/-- Claiming a list of items one after the other. -/
theorem claimAll_spec (db : Db) (orgId : Nat) (items : List ForecastPlanItem) : ∀ st : PopulateState,
    (items.foldl (fun st i => st.claim db orgId i.key) st).out = st.out ∧
    (items.foldl (fun st i => st.claim db orgId i.key) st).existingKeys = st.existingKeys ∧
    (∀ k, k ∈ (items.foldl (fun st i => st.claim db orgId i.key) st).claimedMaster ↔
      k ∈ st.claimedMaster ∨ MasterPlanned db orgId items k) ∧
    ∀ k, k ∈ (items.foldl (fun st i => st.claim db orgId i.key) st).claimedSub ↔
      k ∈ st.claimedSub ∨ SubPlanned db orgId items k := by
  induction items with
  | nil => intro st; simp [MasterPlanned, SubPlanned]
  | cons i items ih =>
    intro st
    obtain ⟨hout, hkeys, hmaster, hsub⟩ := ih (st.claim db orgId i.key)
    rw [List.foldl_cons]
    refine ⟨hout.trans (claim_out st _), hkeys.trans (claim_existingKeys st _), fun k => ?_, fun k => ?_⟩
    · rw [hmaster, mem_claim_master, or_assoc, ← masterPlanned_append, List.singleton_append]
    · rw [hsub, mem_claim_sub, or_assoc, ← subPlanned_append, List.singleton_append]

theorem seeded_out (items : List ForecastPlanItem) : (PopulateState.seeded db orgId items).out = [] :=
  (claimAll_spec db orgId items _).1

theorem seeded_tracks (db : Db) (orgId : Nat) (items : List ForecastPlanItem) :
    Tracks db orgId items (PopulateState.seeded db orgId items) := by
  obtain ⟨hout, hkeys, hmaster, hsub⟩ := claimAll_spec db orgId items
    { out := [], existingKeys := items.map ForecastPlanItem.key, claimedMaster := [], claimedSub := [] }
  refine ⟨fun k => ?_, fun k => ?_, fun k => ?_⟩
  · rw [PopulateState.seeded, hkeys, hout, List.append_nil, List.mem_map]
  · rw [PopulateState.seeded, hmaster, hout, List.append_nil]
    simp
  · rw [PopulateState.seeded, hsub, hout, List.append_nil]
    simp

/-! ## Considering a group -/

variable {sources : PlanSources} {seededMaster pre : List ItemKey}

/-- The item of a group. -/
def PlanSources.item (sources : PlanSources) (key : ItemKey) : ForecastPlanItem :=
  { categoryId := key.1, type := key.2, plannedAmount := sources.planned key
    source := if 0 < sources.recurring key then .recurring else .history }

@[simp] theorem PlanSources.item_key (sources : PlanSources) (key : ItemKey) : (sources.item key).key = key := rfl

theorem PlanSources.item_generated (sources : PlanSources) (key : ItemKey) :
    (sources.item key).source ≠ .manual := by
  unfold PlanSources.item
  dsimp only
  split <;> simp

/-- Why a group adds nothing. -/
def Settled (db : Db) (orgId : Nat) (sources : PlanSources) (seededMaster pre : List ItemKey)
    (st : PopulateState) (key : ItemKey) : Prop :=
  key ∈ st.existingKeys ∨ wouldConflict db orgId seededMaster pre st key = true ∨ sources.planned key ≤ 0

theorem considerGroup_of_settled {st : PopulateState} {key : ItemKey}
    (h : Settled db orgId sources seededMaster pre st key) :
    considerGroup db orgId sources seededMaster pre st key = st := by
  unfold considerGroup
  rcases h with h | h | h
  · rw [if_pos h]
  · rw [if_pos h, ite_self]
  · rw [if_pos h, ite_self, ite_self]

/-- The state with the item of a group added. -/
def PopulateState.add (db : Db) (orgId : Nat) (sources : PlanSources) (st : PopulateState) (key : ItemKey) :
    PopulateState :=
  { st with out := st.out ++ [sources.item key], existingKeys := key :: st.existingKeys }.claim db orgId key

@[simp] theorem add_out (st : PopulateState) (key : ItemKey) :
    (st.add db orgId sources key).out = st.out ++ [sources.item key] := claim_out _ key

/-- A group that is not settled adds its item. -/
theorem considerGroup_of_not_settled {st : PopulateState} {key : ItemKey}
    (h : ¬ Settled db orgId sources seededMaster pre st key) :
    considerGroup db orgId sources seededMaster pre st key = st.add db orgId sources key := by
  unfold Settled at h
  unfold considerGroup
  rw [if_neg (fun h' => h (.inl h')), if_neg (fun h' => h (.inr (.inl h'))),
    if_neg (fun h' => h (.inr (.inr h')))]
  rfl

/-- What holds at the start and is kept by every item added holds after the loop. -/
theorem populate_induction {P : PopulateState → Prop}
    (hadd : ∀ st key, P st → ¬ Settled db orgId sources seededMaster pre st key →
      P (st.add db orgId sources key)) :
    ∀ (candidates : List ItemKey) (st : PopulateState), P st →
      P (candidates.foldl (considerGroup db orgId sources seededMaster pre) st) := by
  intro candidates
  induction candidates with
  | nil => intro st h; exact h
  | cons key candidates ih =>
    intro st h
    rw [List.foldl_cons]
    refine ih _ ?_
    by_cases hs : Settled db orgId sources seededMaster pre st key
    · rwa [considerGroup_of_settled hs]
    · rw [considerGroup_of_not_settled hs]
      exact hadd st key h hs

theorem Tracks.add {items : List ForecastPlanItem} {st : PopulateState} (h : Tracks db orgId items st)
    (key : ItemKey) : Tracks db orgId items (st.add db orgId sources key) := by
  unfold PopulateState.add
  refine ⟨fun k => ?_, fun k => ?_, fun k => ?_⟩
  · rw [claim_existingKeys, claim_out, List.mem_cons, h.keys k, ← List.append_assoc]
    simp only [List.mem_append, List.mem_singleton, or_and_right, exists_or, exists_eq_left,
      PlanSources.item_key]
    rw [or_comm, eq_comm]
  · rw [← sources.item_key key, mem_claim_master, claim_out, ← List.append_assoc, masterPlanned_append,
      sources.item_key]
    exact or_congr_left (h.master k)
  · rw [← sources.item_key key, mem_claim_sub, claim_out, ← List.append_assoc, subPlanned_append,
      sources.item_key]
    exact or_congr_left (h.sub k)

/-! ## What the loop keeps -/

/-- A group that has been settled stays so: the guard's sets only grow. -/
theorem Settled.add {st : PopulateState} {key : ItemKey}
    (h : Settled db orgId sources seededMaster pre st key) (added : ItemKey) :
    Settled db orgId sources seededMaster pre (st.add db orgId sources added) key := by
  have hmaster : ∀ k, k ∈ st.claimedMaster → k ∈ (st.add db orgId sources added).claimedMaster := fun k hk => by
    unfold PopulateState.add
    rw [← sources.item_key added]
    exact mem_claim_master.mpr (.inl hk)
  have hsub : ∀ k, k ∈ st.claimedSub → k ∈ (st.add db orgId sources added).claimedSub := fun k hk => by
    unfold PopulateState.add
    rw [← sources.item_key added]
    exact mem_claim_sub.mpr (.inl hk)
  rcases h with h | h | h
  · refine .inl ?_
    unfold PopulateState.add
    rw [claim_existingKeys]
    exact List.mem_cons_of_mem _ h
  · refine .inr (.inl ?_)
    unfold wouldConflict at h ⊢
    dsimp only at h ⊢
    split at h
    · rename_i hmode
      rw [if_pos hmode]
      exact h
    · rename_i hmode
      rw [if_neg hmode]
      split at h
      · rename_i hm
        rw [if_pos hm]
        exact decide_eq_true (hsub _ (of_decide_eq_true h))
      · rename_i hm
        rw [if_neg hm]
        exact decide_eq_true (hmaster _ (of_decide_eq_true h))
  · exact .inr (.inr h)

/-- Every group considered ends up settled. -/
theorem populate_settled : ∀ (candidates : List ItemKey) (st : PopulateState) {key : ItemKey},
    key ∈ candidates → Settled db orgId sources seededMaster pre
      (candidates.foldl (considerGroup db orgId sources seededMaster pre) st) key := by
  intro candidates
  induction candidates with
  | nil => intro st key h; cases h
  | cons k candidates ih =>
    intro st key h
    rw [List.foldl_cons]
    rcases List.mem_cons.mp h with rfl | h
    · refine populate_induction (P := fun st => Settled db orgId sources seededMaster pre st key)
        (fun st added hst _ => hst.add added) candidates _ ?_
      by_cases hs : Settled db orgId sources seededMaster pre st key
      · rwa [considerGroup_of_settled hs]
      · rw [considerGroup_of_not_settled hs]
        refine .inl ?_
        unfold PopulateState.add
        rw [claim_existingKeys]
        exact List.mem_cons_self
    · exact ih _ h

/-- If every group is settled already, the loop does nothing. -/
theorem populate_of_settled {st : PopulateState} : ∀ {candidates : List ItemKey},
    (∀ key ∈ candidates, Settled db orgId sources seededMaster pre st key) →
      candidates.foldl (considerGroup db orgId sources seededMaster pre) st = st := by
  intro candidates
  induction candidates with
  | nil => intro _; rfl
  | cons key candidates ih =>
    intro h
    rw [List.foldl_cons, considerGroup_of_settled (h key List.mem_cons_self)]
    exact ih fun k hk => h k (List.mem_cons_of_mem _ hk)

/-- What a run leaves: the keys are distinct, everything added is generated, and each
item added was let through when the run started. -/
structure Populated (db : Db) (orgId : Nat) (sources : PlanSources) (seededMaster pre : List ItemKey)
    (items : List ForecastPlanItem) (st : PopulateState) : Prop where
  tracks : Tracks db orgId items st
  keyed : Keyed ForecastPlanItem.key (items ++ st.out)
  generated : ∀ i ∈ st.out, i.source ≠ .manual
  admitted : ∀ i ∈ st.out, (∀ j ∈ items, j.key ≠ i.key) ∧
    (subcategoryMode db orgId = true → i.categoryId ≠ masterOf db orgId i.categoryId →
      (masterOf db orgId i.categoryId, i.type) ∈ seededMaster →
        (masterOf db orgId i.categoryId, i.type) ∈ pre)
  single : subcategoryMode db orgId = false → ¬ DoublePlanned db orgId items →
    ¬ DoublePlanned db orgId (items ++ st.out)

theorem Populated.start {items : List ForecastPlanItem} (h : Keyed ForecastPlanItem.key items) :
    Populated db orgId sources seededMaster pre items (PopulateState.seeded db orgId items) where
  tracks := seeded_tracks db orgId items
  keyed := by rwa [seeded_out, List.append_nil]
  generated := by rw [seeded_out]; intro i hi; cases hi
  admitted := by rw [seeded_out]; intro i hi; cases hi
  single := by rw [seeded_out, List.append_nil]; exact fun _ h => h

/-- In master mode an item that is let through is no half of a pair. -/
theorem not_doublePlanned_concat {items : List ForecastPlanItem} {st : PopulateState} {key : ItemKey}
    (htracks : Tracks db orgId items st) (hmode : subcategoryMode db orgId = false)
    (hs : ¬ Settled db orgId sources seededMaster pre st key)
    (h : ¬ DoublePlanned db orgId (items ++ st.out)) :
    ¬ DoublePlanned db orgId (items ++ st.out ++ [sources.item key]) := by
  intro hpair
  obtain ⟨i, hi, s, hsub, hmaster, hof, hne, htype, hgen⟩ := hpair
  have hfree : wouldConflict db orgId seededMaster pre st key = false := by
    by_contra hc
    exact hs (.inr (.inl (by simpa using hc)))
  simp only [wouldConflict, hmode, Bool.false_eq_true, if_false] at hfree
  rw [List.mem_append, List.mem_singleton] at hi hsub
  rcases hi with hi | rfl
  · rcases hsub with hsub | rfl
    · exact h ⟨i, hi, s, hsub, hmaster, hof, hne, htype, hgen⟩
    · -- the subcategory is new, so its master is not planned
      have hof' : masterOf db orgId key.1 = i.categoryId := hof
      have hne' : key.1 ≠ i.categoryId := hne
      have hplanned : MasterPlanned db orgId (items ++ st.out) (masterOf db orgId key.1, key.2) :=
        ⟨i, hi, hmaster, by rw [hof']; exact Prod.ext rfl htype.symm⟩
      rw [if_neg (by rw [hof']; exact hne'), decide_eq_false_iff_not] at hfree
      exact hfree ((htracks.master _).mpr hplanned)
  · rcases hsub with hsub | rfl
    · -- the master is new, so none of its subcategories is planned
      have hkey : masterOf db orgId key.1 = key.1 := hmaster
      have hplanned : SubPlanned db orgId (items ++ st.out) (masterOf db orgId key.1, key.2) := by
        refine ⟨s, hsub, ?_, ?_⟩
        · rw [hof]; exact Ne.symm hne
        · rw [hof, hkey]; exact Prod.ext rfl htype
      rw [if_pos hkey.symm, decide_eq_false_iff_not] at hfree
      exact hfree ((htracks.sub _).mpr hplanned)
    · exact hne rfl

/-- A run of populate over some sources. -/
def populateRun (db : Db) (orgId : Nat) (sources : PlanSources) (pre : List ItemKey)
    (items : List ForecastPlanItem) : PopulateState :=
  sources.candidates.foldl
    (considerGroup db orgId sources (PopulateState.seeded db orgId items).claimedMaster pre)
    (PopulateState.seeded db orgId items)

theorem populateRun_spec (db : Db) (orgId : Nat) (sources : PlanSources) (pre : List ItemKey)
    {items : List ForecastPlanItem} (h : Keyed ForecastPlanItem.key items) :
    Populated db orgId sources (PopulateState.seeded db orgId items).claimedMaster pre items
      (populateRun db orgId sources pre items) := by
  refine populate_induction ?_ sources.candidates _ (.start h)
  intro st key hst hs
  have hnew : ∀ j ∈ items ++ st.out, j.key ≠ key := fun j hj hk =>
    hs (.inl ((hst.tracks.keys key).mpr ⟨j, hj, hk⟩))
  refine ⟨hst.tracks.add key, ?_, ?_, ?_, ?_⟩
  · rw [add_out, ← List.append_assoc]
    exact hst.keyed.concat hnew
  · rw [add_out]
    intro i hi
    rcases List.mem_append.mp hi with hi | hi
    · exact hst.generated i hi
    · rw [List.mem_singleton.mp hi]
      exact sources.item_generated key
  · rw [add_out]
    intro i hi
    rcases List.mem_append.mp hi with hi | hi
    · exact hst.admitted i hi
    · rw [List.mem_singleton.mp hi]
      refine ⟨fun j hj => hnew j (List.mem_append_left _ hj), fun hmode hne hmem => ?_⟩
      by_contra hpre
      refine hs (.inr (.inl ?_))
      simp only [wouldConflict, hmode, if_true]
      exact decide_eq_true ⟨hne, hmem, hpre⟩
  · intro hmode hclean
    rw [add_out, ← List.append_assoc]
    exact not_doublePlanned_concat hst.tracks hmode hs (hst.single hmode hclean)

/-! ## The sources, and what the plan holds already -/

section Sources

variable {pStart pEnd : Int} {existing : List ItemKey} {key : ItemKey}

/-- A group not in the plan has the same occurrences whatever else is in it. -/
theorem projectedOccurrences_at (h : key ∉ existing) :
    (projectedOccurrences db orgId pStart pEnd existing).filter (fun e => e.1 == key) =
      (projectedOccurrences db orgId pStart pEnd []).filter (fun e => e.1 == key) := by
  unfold projectedOccurrences
  rw [List.filter_flatMap, List.filter_flatMap]
  congr 1
  funext p
  cases hgroup : groupOf db orgId p.2.categoryId p.2.type with
  | none => rfl
  | some k =>
    dsimp only
    by_cases hk : k ∈ existing
    · have hne : k ≠ key := fun e => h (e ▸ hk)
      rw [if_pos hk, if_neg (by simp), List.filter_nil, eq_comm, List.filter_eq_nil_iff]
      intro e he
      obtain ⟨d, -, rfl⟩ := List.mem_map.mp he
      simpa using hne
    · rw [if_neg hk, if_neg (by simp)]

theorem mem_map_fst_iff {α : Type} {l : List (ItemKey × α)} {key : ItemKey} :
    key ∈ l.map Prod.fst ↔ l.filter (fun e => e.1 == key) ≠ [] := by
  rw [ne_eq, List.filter_eq_nil_iff, List.mem_map]
  simp only [beq_iff_eq, not_forall, not_not, exists_prop]

variable {roundedMean : Int → Nat → Int}

theorem planSources_planned (h : key ∉ existing) :
    (planSources db orgId roundedMean pStart pEnd existing).planned key =
      (planSources db orgId roundedMean pStart pEnd []).planned key := by
  have htotal : totalAt (projectedOccurrences db orgId pStart pEnd existing ++
      periodAmounts db orgId pStart pEnd true) key =
      totalAt (projectedOccurrences db orgId pStart pEnd [] ++ periodAmounts db orgId pStart pEnd true) key := by
    unfold totalAt
    rw [List.filter_append, List.filter_append, projectedOccurrences_at h]
  unfold planSources
  dsimp only
  rw [htotal]

theorem planSources_candidates (h : key ∉ existing) :
    key ∈ (planSources db orgId roundedMean pStart pEnd existing).candidates ↔
      key ∈ (planSources db orgId roundedMean pStart pEnd []).candidates := by
  unfold planSources
  dsimp only
  rw [List.mem_eraseDups, List.mem_eraseDups, List.map_append, List.map_append]
  simp only [List.mem_append]
  rw [mem_map_fst_iff, projectedOccurrences_at h, ← mem_map_fst_iff]

end Sources

/-! ## Populating twice -/

section Twice

variable {roundedMean : Int → Nat → Int} {period : BillingPeriod} {items out : List ForecastPlanItem}

/-- The sources of a plan that holds `items`. -/
def sourcesFor (db : Db) (orgId : Nat) (roundedMean : Int → Nat → Int) (period : BillingPeriod) (pEnd : Int)
    (items : List ForecastPlanItem) : PlanSources :=
  planSources db orgId roundedMean period.startDate pEnd (PopulateState.seeded db orgId items).existingKeys

theorem planPopulate_eq_ok {pairs : Option (List ItemKey)} :
    planPopulate db orgId roundedMean period items pairs = .ok out ↔
      ∃ pEnd, planPeriodEnd period = .ok pEnd ∧
        (populateRun db orgId (sourcesFor db orgId roundedMean period pEnd items)
          (pairs.getD (PopulateState.seeded db orgId items).claimedSub) items).out = out := by
  unfold planPopulate
  rw [bind_eq_ok]
  simp only [Except.ok.injEq]
  rfl

/-- **The second run of populate finds every group settled.** -/
theorem planPopulate_again (hkeyed : Keyed ForecastPlanItem.key items)
    (h : planPopulate db orgId roundedMean period items none = .ok out) :
    planPopulate db orgId roundedMean period (items ++ out) none = .ok [] := by
  obtain ⟨pEnd, hend, hout⟩ := planPopulate_eq_ok.mp h
  rw [Option.getD_none] at hout
  refine planPopulate_eq_ok.mpr ⟨pEnd, hend, ?_⟩
  rw [Option.getD_none, populateRun, populate_of_settled, seeded_out]
  intro key hkey
  -- the first run, at its end
  have hst := seeded_tracks db orgId items
  have hst₂ := seeded_tracks db orgId (items ++ out)
  have hrun := populateRun_spec db orgId (sourcesFor db orgId roundedMean period pEnd items)
    (PopulateState.seeded db orgId items).claimedSub hkeyed
  have hkeys := hrun.tracks.keys
  have hmaster := hrun.tracks.master
  have hsub := hrun.tracks.sub
  have hadmitted := hrun.admitted
  rw [hout] at hkeys hmaster hsub hadmitted
  obtain ⟨hkeys₁, hmaster₁, hsub₁⟩ := hst
  obtain ⟨hkeys₂, hmaster₂, hsub₂⟩ := hst₂
  rw [seeded_out, List.append_nil] at hkeys₁ hmaster₁ hsub₁ hkeys₂ hmaster₂ hsub₂
  by_cases hheld : key ∈ (PopulateState.seeded db orgId (items ++ out)).existingKeys
  · exact .inl hheld
  · have hnew : key ∉ (PopulateState.seeded db orgId items).existingKeys := fun hk => by
      obtain ⟨j, hj, he⟩ := (hkeys₁ key).mp hk
      exact hheld ((hkeys₂ key).mpr ⟨j, List.mem_append_left _ hj, he⟩)
    have hcand := (planSources_candidates hnew).mpr ((planSources_candidates hheld).mp hkey)
    rcases populate_settled _ (PopulateState.seeded db orgId items) hcand with hs | hs | hs
    · exact absurd ((hkeys₂ key).mpr ((hkeys key).mp hs)) hheld
    · refine .inr (.inl ?_)
      unfold wouldConflict at hs ⊢
      dsimp only at hs ⊢
      split at hs
      · -- subcategory mode: no subcategory was added under a master that claims its subtree
        rename_i hmode
        rw [if_pos hmode]
        obtain ⟨hne, hin, hpre⟩ := of_decide_eq_true hs
        refine decide_eq_true ⟨hne, (hmaster₂ _).mpr (masterPlanned_append.mpr (.inl ((hmaster₁ _).mp hin))), ?_⟩
        intro hc
        rcases subPlanned_append.mp ((hsub₂ _).mp hc) with hc | hc
        · exact hpre ((hsub₁ _).mpr hc)
        · obtain ⟨i, hi, hine, hik⟩ := hc
          have hlet := (hadmitted i hi).2 hmode (Ne.symm hine)
          rw [hik] at hlet
          exact hpre (hlet hin)
      · rename_i hmode
        rw [if_neg hmode]
        split at hs
        · rename_i hm
          rw [if_pos hm]
          exact decide_eq_true ((hsub₂ _).mpr ((hsub _).mp (of_decide_eq_true hs)))
        · rename_i hm
          rw [if_neg hm]
          exact decide_eq_true ((hmaster₂ _).mpr ((hmaster _).mp (of_decide_eq_true hs)))
    · refine .inr (.inr ?_)
      unfold sourcesFor at hs ⊢
      rwa [planSources_planned hheld, ← planSources_planned hnew]

end Twice

/-! ## Refreshing twice -/

section Refresh

theorem masterOf_ne {c : Nat} (h : masterOf db orgId c ≠ c) :
    (findCategory db orgId c).bind (·.parentId) = some (masterOf db orgId c) := by
  unfold masterOf at h ⊢
  cases hp : (findCategory db orgId c).bind (·.parentId) with
  | none => rw [hp] at h; exact absurd rfl h
  | some m => rfl

theorem mem_subPairs {items : List ForecastPlanItem} {k : ItemKey} :
    k ∈ subPairs db orgId items ↔
      ∃ i ∈ items, (findCategory db orgId i.categoryId).bind (·.parentId) = some k.1 ∧ i.type = k.2 := by
  unfold subPairs
  rw [List.mem_filterMap]
  constructor
  · intro h
    obtain ⟨i, hi, h⟩ := h
    obtain ⟨m, hm, rfl⟩ := Option.map_eq_some_iff.mp h
    exact ⟨i, hi, hm, rfl⟩
  · intro h
    obtain ⟨i, hi, hm, ht⟩ := h
    exact ⟨i, hi, by rw [hm, ht]; rfl⟩

/-- The items added only accumulate. -/
theorem out_grows (candidates : List ItemKey) (st : PopulateState) :
    st.out <+: (candidates.foldl (considerGroup db orgId sources seededMaster pre) st).out := by
  refine populate_induction (P := fun st' => st.out <+: st'.out) ?_ candidates st List.prefix_rfl
  intro st' key h _
  rw [add_out]
  exact h.trans (List.prefix_append _ _)

/-- **Another snapshot makes no difference** if it holds the pair of every subcategory the
run adds, and of the masters that claim their subtree no pair that was not there. -/
theorem considerGroup_congr {pre pre₂ : List ItemKey} : ∀ {candidates : List ItemKey} {st : PopulateState},
    (subcategoryMode db orgId = true → ∀ k ∈ seededMaster, k ∈ pre₂ → k ∈ pre) →
    (∀ i ∈ (candidates.foldl (considerGroup db orgId sources seededMaster pre) st).out,
      masterOf db orgId i.categoryId ≠ i.categoryId → (masterOf db orgId i.categoryId, i.type) ∈ pre₂) →
    candidates.foldl (considerGroup db orgId sources seededMaster pre₂) st =
      candidates.foldl (considerGroup db orgId sources seededMaster pre) st := by
  intro candidates
  induction candidates with
  | nil => intro st _ _; rfl
  | cons key candidates ih =>
    intro st hclaims hadded
    rw [List.foldl_cons] at hadded ⊢
    rw [List.foldl_cons]
    by_cases hs : Settled db orgId sources seededMaster pre st key
    · rw [considerGroup_of_settled hs] at hadded ⊢
      have hs₂ : Settled db orgId sources seededMaster pre₂ st key := by
        rcases hs with hs | hs | hs
        · exact .inl hs
        · refine .inr (.inl ?_)
          unfold wouldConflict at hs ⊢
          dsimp only at hs ⊢
          split at hs
          · rename_i hmode
            rw [if_pos hmode]
            obtain ⟨hne, hin, hpre⟩ := of_decide_eq_true hs
            exact decide_eq_true ⟨hne, hin, fun h₂ => hpre (hclaims hmode _ hin h₂)⟩
          · rename_i hmode
            rw [if_neg hmode]
            exact hs
        · exact .inr (.inr hs)
      rw [considerGroup_of_settled hs₂]
      exact ih hclaims hadded
    · rw [considerGroup_of_not_settled hs] at hadded ⊢
      have hmem : sources.item key ∈
          (candidates.foldl (considerGroup db orgId sources seededMaster pre)
            (st.add db orgId sources key)).out := by
        refine (out_grows candidates _).subset ?_
        rw [add_out]
        exact List.mem_append_right _ (List.mem_singleton_self _)
      have hs₂ : ¬ Settled db orgId sources seededMaster pre₂ st key := by
        intro hs₂
        rcases hs₂ with hs₂ | hs₂ | hs₂
        · exact hs (.inl hs₂)
        · refine hs (.inr (.inl ?_))
          unfold wouldConflict at hs₂ ⊢
          dsimp only at hs₂ ⊢
          split at hs₂
          · obtain ⟨hne, hin, hpre⟩ := of_decide_eq_true hs₂
            exact absurd (hadded _ hmem (Ne.symm hne)) hpre
          · rename_i hmode
            rw [if_neg hmode]
            exact hs₂
        · exact hs (.inr (.inr hs₂))
      rw [considerGroup_of_not_settled hs₂]
      exact ih hclaims hadded

/-- A refresh populates the same with the snapshot its own result would give. -/
theorem planPopulate_refreshed {roundedMean : Int → Nat → Int} {period : BillingPeriod}
    {items kept out : List ForecastPlanItem} (hkeyed : Keyed ForecastPlanItem.key kept)
    (hkept : ∀ i ∈ kept, i ∈ items)
    (h : planPopulate db orgId roundedMean period kept (some (subPairs db orgId items)) = .ok out) :
    planPopulate db orgId roundedMean period kept (some (subPairs db orgId (kept ++ out))) = .ok out := by
  obtain ⟨pEnd, hend, hout⟩ := planPopulate_eq_ok.mp h
  rw [Option.getD_some] at hout
  refine planPopulate_eq_ok.mpr ⟨pEnd, hend, ?_⟩
  rw [Option.getD_some]
  have hadmitted := (populateRun_spec db orgId (sourcesFor db orgId roundedMean period pEnd kept)
    (subPairs db orgId items) hkeyed).admitted
  rw [hout] at hadmitted
  have hsame : populateRun db orgId (sourcesFor db orgId roundedMean period pEnd kept)
      (subPairs db orgId (kept ++ out)) kept =
      populateRun db orgId (sourcesFor db orgId roundedMean period pEnd kept) (subPairs db orgId items) kept := by
    refine considerGroup_congr ?_ ?_
    · -- a pair that is new in the result belongs to a master that claims nothing
      intro hmode k hin h₂
      obtain ⟨i, hi, hparent, htype⟩ := mem_subPairs.mp h₂
      rcases List.mem_append.mp hi with hi | hi
      · exact mem_subPairs.mpr ⟨i, hkept i hi, hparent, htype⟩
      · have hof : masterOf db orgId i.categoryId = k.1 := by rw [masterOf, hparent]; rfl
        have hlet := (hadmitted i hi).2 hmode
        rw [hof, htype] at hlet
        by_cases hself : i.categoryId = k.1
        · obtain ⟨j, hj, -, hjk⟩ := ((seeded_tracks db orgId kept).master k).mp hin
          rw [seeded_out, List.append_nil] at hj
          refine absurd ?_ ((hadmitted i hi).1 j hj)
          rw [hjk]
          exact Prod.ext hself.symm htype.symm
        · exact hlet hself hin
    · intro i hi hne
      rw [populateRun] at hout
      rw [hout] at hi
      exact mem_subPairs.mpr ⟨i, List.mem_append_right _ hi, masterOf_ne hne, rfl⟩
  rw [hsame, hout]

end Refresh

end Populate

/-! ## Copying -/

section Copying

variable {db : Db} {orgId : Nat}

/-- The target's claims keep the item out. -/
def Blocked (db : Db) (orgId : Nat) (targetMaster targetSub : List ItemKey) (i : ForecastPlanItem) : Prop :=
  if i.categoryId = masterOf db orgId i.categoryId then (masterOf db orgId i.categoryId, i.type) ∈ targetSub
  else (masterOf db orgId i.categoryId, i.type) ∈ targetMaster ∧
    (masterOf db orgId i.categoryId, i.type) ∉ targetSub

theorem copies_eq_true {targetMaster targetSub existing : List ItemKey} {i : ForecastPlanItem} :
    copies db orgId targetMaster targetSub existing i = true ↔
      i.key ∉ existing ∧ ¬ Blocked db orgId targetMaster targetSub i := by
  unfold copies Blocked
  dsimp only
  by_cases hk : i.key ∈ existing
  · simp [hk]
  · rw [if_neg hk]
    split <;> rw [decide_eq_true_eq] <;> exact ⟨fun h => ⟨hk, h⟩, And.right⟩

/-- What a copy has taken over from the items looked at so far. -/
structure Copied (db : Db) (orgId : Nat) (targetMaster targetSub : List ItemKey)
    (target : List ForecastPlanItem) (seen : List ForecastPlanItem)
    (acc : List ForecastPlanItem × List ItemKey) : Prop where
  keys : ∀ k, k ∈ acc.2 ↔ ∃ i ∈ target ++ acc.1, i.key = k
  keyed : Keyed ForecastPlanItem.key (target ++ acc.1)
  free : ∀ i ∈ acc.1, ¬ Blocked db orgId targetMaster targetSub i
  done : ∀ i ∈ seen, i.key ∈ acc.2 ∨ Blocked db orgId targetMaster targetSub i

theorem Copied.step {targetMaster targetSub : List ItemKey} {target seen : List ForecastPlanItem}
    {acc : List ForecastPlanItem × List ItemKey}
    (h : Copied db orgId targetMaster targetSub target seen acc) (i : ForecastPlanItem) :
    Copied db orgId targetMaster targetSub target (seen ++ [i])
      (if copies db orgId targetMaster targetSub acc.2 i then (acc.1 ++ [i], i.key :: acc.2) else acc) := by
  split
  · rename_i hc
    obtain ⟨hnew, hfree⟩ := copies_eq_true.mp hc
    refine ⟨fun k => ?_, ?_, ?_, ?_⟩
    · dsimp only
      rw [List.mem_cons, h.keys k, ← List.append_assoc]
      simp only [List.mem_append, List.mem_singleton, or_and_right, exists_or, exists_eq_left]
      rw [or_comm, eq_comm]
    · dsimp only
      rw [← List.append_assoc]
      exact h.keyed.concat fun j hj hk => hnew ((h.keys _).mpr ⟨j, hj, hk⟩)
    · intro j hj
      rcases List.mem_append.mp hj with hj | hj
      · exact h.free j hj
      · rw [List.mem_singleton.mp hj]
        exact hfree
    · intro j hj
      rcases List.mem_append.mp hj with hj | hj
      · rcases h.done j hj with hd | hd
        · exact .inl (List.mem_cons_of_mem _ hd)
        · exact .inr hd
      · rw [List.mem_singleton.mp hj]
        exact .inl List.mem_cons_self
  · rename_i hc
    refine ⟨h.keys, h.keyed, h.free, ?_⟩
    intro j hj
    rcases List.mem_append.mp hj with hj | hj
    · exact h.done j hj
    · rw [List.mem_singleton.mp hj]
      by_contra hn
      rw [not_or] at hn
      exact hc (copies_eq_true.mpr hn)

theorem planCopy_spec (db : Db) (orgId : Nat) (source : List ForecastPlanItem) {target : List ForecastPlanItem}
    (hkeyed : Keyed ForecastPlanItem.key target) :
    ∃ acc, planCopy db orgId source target = acc.1 ∧
      Copied db orgId (PopulateState.seeded db orgId target).claimedMaster
        (PopulateState.seeded db orgId target).claimedSub target source acc := by
  have hloop : ∀ (rest seen : List ForecastPlanItem) (acc : List ForecastPlanItem × List ItemKey),
      Copied db orgId (PopulateState.seeded db orgId target).claimedMaster
        (PopulateState.seeded db orgId target).claimedSub target seen acc →
      Copied db orgId (PopulateState.seeded db orgId target).claimedMaster
        (PopulateState.seeded db orgId target).claimedSub target (seen ++ rest)
        (rest.foldl (fun acc i => if copies db orgId (PopulateState.seeded db orgId target).claimedMaster
          (PopulateState.seeded db orgId target).claimedSub acc.2 i then (acc.1 ++ [i], i.key :: acc.2)
          else acc) acc) := by
    intro rest
    induction rest with
    | nil => intro seen acc h; rwa [List.append_nil]
    | cons i rest ih =>
      intro seen acc h
      rw [List.foldl_cons, List.append_cons]
      exact ih _ _ (h.step i)
  refine ⟨_, rfl, hloop source [] _ ⟨?_, ?_, ?_, ?_⟩⟩
  · intro k
    have := (seeded_tracks db orgId target).keys k
    rw [seeded_out] at this
    exact this
  · rwa [List.append_nil]
  · intro i hi; cases hi
  · intro i hi; cases hi

/-- A copied item is the user's own. -/
def copiedItems (db : Db) (orgId : Nat) (source target : List ForecastPlanItem) : List ForecastPlanItem :=
  (planCopy db orgId source target).map (fun i => { i with source := .manual })

theorem copiedItems_keyed (source : List ForecastPlanItem) {target : List ForecastPlanItem}
    (hkeyed : Keyed ForecastPlanItem.key target) :
    Keyed ForecastPlanItem.key (target ++ copiedItems db orgId source target) := by
  obtain ⟨acc, hacc, hcopied⟩ := planCopy_spec db orgId source hkeyed
  have h := hcopied.keyed
  rw [Keyed, List.map_append] at h ⊢
  rwa [copiedItems, hacc, List.map_map]

/-- **A second copy finds everything copied or kept out.** -/
theorem planCopy_again (db : Db) (orgId : Nat) (source : List ForecastPlanItem) {target : List ForecastPlanItem}
    (hkeyed : Keyed ForecastPlanItem.key target) :
    planCopy db orgId source (target ++ copiedItems db orgId source target) = [] := by
  obtain ⟨acc, hacc, hcopied⟩ := planCopy_spec db orgId source hkeyed
  obtain ⟨hkeys₁, hmaster₁, hsub₁⟩ := seeded_tracks db orgId target
  obtain ⟨hkeys₂, hmaster₂, hsub₂⟩ := seeded_tracks db orgId
    (target ++ copiedItems db orgId source target)
  rw [seeded_out, List.append_nil] at hkeys₁ hmaster₁ hsub₁ hkeys₂ hmaster₂ hsub₂
  have hno : ∀ i ∈ source, copies db orgId
      (PopulateState.seeded db orgId (target ++ copiedItems db orgId source target)).claimedMaster
      (PopulateState.seeded db orgId (target ++ copiedItems db orgId source target)).claimedSub
      (PopulateState.seeded db orgId (target ++ copiedItems db orgId source target)).existingKeys i = false := by
    intro i hi
    rw [Bool.eq_false_iff, ne_eq, copies_eq_true, not_and_or, not_not, not_not]
    rcases hcopied.done i hi with hd | hd
    · refine .inl ((hkeys₂ _).mpr ?_)
      obtain ⟨j, hj, hk⟩ := (hcopied.keys _).mp hd
      rcases List.mem_append.mp hj with hj | hj
      · exact ⟨j, List.mem_append_left _ hj, hk⟩
      · refine ⟨{ j with source := .manual }, List.mem_append_right _ ?_, hk⟩
        rw [copiedItems, hacc]
        exact List.mem_map_of_mem hj
    · refine .inr ?_
      unfold Blocked at hd ⊢
      split at hd
      · rename_i hm
        rw [if_pos hm]
        exact (hsub₂ _).mpr (subPlanned_append.mpr (.inl ((hsub₁ _).mp hd)))
      · rename_i hm
        rw [if_neg hm]
        refine ⟨(hmaster₂ _).mpr (masterPlanned_append.mpr (.inl ((hmaster₁ _).mp hd.1))), fun hc => ?_⟩
        rcases subPlanned_append.mp ((hsub₂ _).mp hc) with hc | hc
        · exact hd.2 ((hsub₁ _).mpr hc)
        · -- a subcategory of the same master was kept out by the same claim
          obtain ⟨copied, hc, hne, hk⟩ := hc
          rw [copiedItems, hacc] at hc
          obtain ⟨j, hj, rfl⟩ := List.mem_map.mp hc
          refine hcopied.free j hj ?_
          unfold Blocked
          dsimp only at hne hk
          rw [if_neg (Ne.symm hne), hk]
          exact hd
  unfold planCopy
  dsimp only
  generalize (PopulateState.seeded db orgId (target ++ copiedItems db orgId source target)).existingKeys = keys
    at hno ⊢
  suffices h : ∀ rest : List ForecastPlanItem, (∀ i ∈ rest, i ∈ source) →
      rest.foldl (fun acc i => if copies db orgId
        (PopulateState.seeded db orgId (target ++ copiedItems db orgId source target)).claimedMaster
        (PopulateState.seeded db orgId (target ++ copiedItems db orgId source target)).claimedSub acc.2 i
        then (acc.1 ++ [i], i.key :: acc.2) else acc) (([] : List ForecastPlanItem), keys) = ([], keys) by
    rw [h source fun i hi => hi]
  intro rest
  induction rest with
  | nil => intro _; rfl
  | cons i rest ih =>
    intro hrest
    rw [List.foldl_cons, if_neg (by rw [hno i (hrest i List.mem_cons_self)]; simp)]
    exact ih fun j hj => hrest j (List.mem_cons_of_mem _ hj)

/-- In master mode a copy makes no pair: a generated subcategory keeps its master out. -/
theorem copy_not_doublePlanned (source : List ForecastPlanItem) {target : List ForecastPlanItem}
    (hkeyed : Keyed ForecastPlanItem.key target) (h : ¬ DoublePlanned db orgId target) :
    ¬ DoublePlanned db orgId (target ++ copiedItems db orgId source target) := by
  intro hpair
  obtain ⟨i, hi, s, hs, hmaster, hof, hne, htype, hgen⟩ := hpair
  obtain ⟨acc, hacc, hcopied⟩ := planCopy_spec db orgId source hkeyed
  have hmanual : ∀ j ∈ copiedItems db orgId source target, j.source = .manual := by
    intro j hj
    obtain ⟨j', -, rfl⟩ := List.mem_map.mp hj
    rfl
  have hs' : s ∈ target := by
    rcases List.mem_append.mp hs with hs | hs
    · exact hs
    · exact absurd (hmanual s hs) hgen
  rcases List.mem_append.mp hi with hi | hi
  · exact h ⟨i, hi, s, hs', hmaster, hof, hne, htype, hgen⟩
  · rw [copiedItems, hacc] at hi
    obtain ⟨j, hj, rfl⟩ := List.mem_map.mp hi
    dsimp only at hmaster hof hne htype
    refine hcopied.free j hj ?_
    have hsub := (seeded_tracks db orgId target).sub
    rw [seeded_out, List.append_nil] at hsub
    unfold Blocked
    rw [if_pos hmaster.symm, hsub]
    exact ⟨s, hs', by rw [hof]; exact Ne.symm hne, by rw [hof, hmaster]; exact Prod.ext rfl htype⟩

end Copying

/-! ## The calls -/

section Calls

variable {db : Db} {orgId : Nat} {roundedMean : Int → Nat → Int} {period : BillingPeriod}

theorem ForecastPlan.ext_items {p q : ForecastPlan} (hstatus : p.status = q.status) (hitems : p.items = q.items) :
    p = q := by
  cases p
  cases q
  obtain rfl := hstatus
  obtain rfl := hitems
  rfl

theorem withItems_of_keyed {plan : ForecastPlan} {items : List ForecastPlanItem}
    (h : Keyed ForecastPlanItem.key items) :
    plan.withItems items = .ok { status := plan.status, items, keyed := h } := dif_pos h

theorem planPopulate_spec {items out : List ForecastPlanItem} {pairs : Option (List ItemKey)}
    (hkeyed : Keyed ForecastPlanItem.key items)
    (h : planPopulate db orgId roundedMean period items pairs = .ok out) :
    Keyed ForecastPlanItem.key (items ++ out) ∧ (∀ i ∈ out, i.source ≠ .manual) ∧
      (subcategoryMode db orgId = false → ¬ DoublePlanned db orgId items →
        ¬ DoublePlanned db orgId (items ++ out)) := by
  obtain ⟨pEnd, -, rfl⟩ := planPopulate_eq_ok.mp h
  have hrun := populateRun_spec db orgId (sourcesFor db orgId roundedMean period pEnd items)
    (pairs.getD (PopulateState.seeded db orgId items).claimedSub) hkeyed
  exact ⟨hrun.keyed, hrun.generated, hrun.single⟩

theorem populateFromSources_eq_ok {pairs : Option (List ItemKey)} {plan plan' : ForecastPlan} :
    populateFromSources db orgId roundedMean period pairs plan = .ok plan' ↔
      plan.status ≠ .active ∧ plan'.status = plan.status ∧
        ∃ rows, planPopulate db orgId roundedMean period plan.items pairs = .ok rows ∧
          plan'.items = plan.items ++ rows := by
  unfold populateFromSources
  rw [bind_eq_ok]
  constructor
  · intro h
    obtain ⟨_, hdraft, h⟩ := h
    obtain ⟨rows, hrows, h⟩ := bind_eq_ok.mp h
    rw [withItems_of_keyed (planPopulate_spec plan.keyed hrows).1] at h
    rw [← Except.ok.inj h]
    exact ⟨refuse_eq_ok.mp hdraft, rfl, rows, hrows, rfl⟩
  · intro h
    obtain ⟨hdraft, hstatus, rows, hrows, hitems⟩ := h
    refine ⟨(), refuse_eq_ok.mpr hdraft, bind_eq_ok.mpr ⟨rows, hrows, ?_⟩⟩
    rw [withItems_of_keyed (planPopulate_spec plan.keyed hrows).1]
    exact congrArg Except.ok (ForecastPlan.ext_items hstatus.symm hitems.symm)

/-- The items a refresh keeps. -/
def manualItems (items : List ForecastPlanItem) : List ForecastPlanItem :=
  items.filter (fun i => i.source == .manual)

theorem manualItems_append_generated {items rows : List ForecastPlanItem}
    (h : ∀ i ∈ rows, i.source ≠ .manual) : manualItems (items ++ rows) = manualItems items := by
  have hnone : rows.filter (fun i => i.source == .manual) = [] := by
    rw [List.filter_eq_nil_iff]
    intro i hi
    simpa using h i hi
  rw [manualItems, List.filter_append, hnone, List.append_nil]
  rfl

theorem manualItems_idem (items : List ForecastPlanItem) :
    manualItems (manualItems items) = manualItems items := by
  simp [manualItems]

theorem refreshFromSources_eq_ok {plan plan' : ForecastPlan} :
    refreshFromSources db orgId roundedMean period plan = .ok plan' ↔
      plan.status ≠ .active ∧ plan'.status = plan.status ∧
        ∃ rows, planPopulate db orgId roundedMean period (manualItems plan.items)
            (some (subPairs db orgId plan.items)) = .ok rows ∧
          plan'.items = manualItems plan.items ++ rows := by
  unfold refreshFromSources
  rw [bind_eq_ok]
  constructor
  · intro h
    obtain ⟨_, hdraft, h⟩ := h
    dsimp only at h
    rw [withItems_of_keyed (plan.keyed.filter _)] at h
    obtain ⟨cleared, hcleared, h⟩ := bind_eq_ok.mp h
    obtain rfl := Except.ok.inj hcleared
    obtain ⟨-, hstatus, rows, hrows, hitems⟩ := populateFromSources_eq_ok.mp h
    exact ⟨refuse_eq_ok.mp hdraft, hstatus, rows, hrows, hitems⟩
  · intro h
    obtain ⟨hdraft, hstatus, rows, hrows, hitems⟩ := h
    refine ⟨(), refuse_eq_ok.mpr hdraft, ?_⟩
    dsimp only
    rw [withItems_of_keyed (plan.keyed.filter _)]
    exact bind_eq_ok.mpr ⟨_, rfl, populateFromSources_eq_ok.mpr ⟨hdraft, hstatus, rows, hrows, hitems⟩⟩

theorem copyFromPeriod_eq_ok {source : Option ForecastPlan} {plan plan' : ForecastPlan} :
    copyFromPeriod db orgId source plan = .ok plan' ↔
      ∃ src, source = some src ∧ src.items ≠ [] ∧ plan.status ≠ .active ∧ plan'.status = plan.status ∧
        plan'.items = plan.items ++ copiedItems db orgId src.items plan.items := by
  unfold copyFromPeriod
  rw [bind_eq_ok]
  constructor
  · intro h
    obtain ⟨src, hsrc, h⟩ := h
    obtain ⟨hsome, hne⟩ := Option.filter_eq_some_iff.mp (found_eq_ok.mp hsrc)
    obtain ⟨_, hdraft, h⟩ := bind_eq_ok.mp h
    rw [← copiedItems, withItems_of_keyed (copiedItems_keyed src.items plan.keyed)] at h
    rw [← Except.ok.inj h]
    exact ⟨src, hsome, by simpa using hne, refuse_eq_ok.mp hdraft, rfl, rfl⟩
  · intro h
    obtain ⟨src, hsome, hne, hdraft, hstatus, hitems⟩ := h
    refine ⟨src, found_eq_ok.mpr (Option.filter_eq_some_iff.mpr ⟨hsome, by simpa using hne⟩),
      bind_eq_ok.mpr ⟨(), refuse_eq_ok.mpr hdraft, ?_⟩⟩
    rw [← copiedItems, withItems_of_keyed (copiedItems_keyed src.items plan.keyed)]
    exact congrArg Except.ok (ForecastPlan.ext_items hstatus.symm hitems.symm)

/-- A plan copied onto itself has every key already. -/
theorem copiedItems_self (items : List ForecastPlanItem) : copiedItems db orgId items items = [] := by
  have hkeys := (seeded_tracks db orgId items).keys
  rw [seeded_out, List.append_nil] at hkeys
  have hloop : ∀ rest : List ForecastPlanItem, (∀ i ∈ rest, i ∈ items) →
      rest.foldl (fun acc i => if copies db orgId (PopulateState.seeded db orgId items).claimedMaster
        (PopulateState.seeded db orgId items).claimedSub acc.2 i then (acc.1 ++ [i], i.key :: acc.2) else acc)
        (([] : List ForecastPlanItem), (PopulateState.seeded db orgId items).existingKeys) =
          ([], (PopulateState.seeded db orgId items).existingKeys) := by
    intro rest
    induction rest with
    | nil => intro _; rfl
    | cons i rest ih =>
      intro hrest
      have hheld := (hkeys i.key).mpr ⟨i, hrest i List.mem_cons_self, rfl⟩
      rw [List.foldl_cons, if_neg (fun hc => (copies_eq_true.mp hc).1 hheld)]
      exact ih fun j hj => hrest j (List.mem_cons_of_mem _ hj)
  rw [copiedItems, planCopy, hloop items fun i hi => hi]
  rfl

/-! ## What a call promises -/

/-- What every call on the plans of an org promises. -/
structure PlanCallKeeps (db : Db) (orgId : Nat) (roundedMean : Int → Nat → Int) (plans : Plans)
    (call : PlanCall) : Prop where
  /-- No call runs into the unique constraint on category and type. -/
  unique : handlePlanCall db orgId roundedMean plans call ≠ .error .integrity
  keyed : ∀ {plans'}, handlePlanCall db orgId roundedMean plans call = .ok plans' →
    Keyed ForecastPlanItem.key (planAt plans' call.target).items
  /-- Only the target is written. -/
  frame : ∀ {plans'}, handlePlanCall db orgId roundedMean plans call = .ok plans' →
    ∀ periodId, periodId ≠ call.target → plans' periodId = plans periodId
  /-- Populate and refresh leave the manual items as they are; a copy only adds to them. -/
  manual : ∀ {plans'}, handlePlanCall db orgId roundedMean plans call = .ok plans' →
    manualItems (planAt plans call.target).items <+: manualItems (planAt plans' call.target).items ∧
      ((∀ targetId sourceId, call ≠ .copy targetId sourceId) →
        manualItems (planAt plans' call.target).items = manualItems (planAt plans call.target).items)
  /-- In master mode no call makes a pair, and a refresh leaves none. -/
  single : ∀ {plans'}, handlePlanCall db orgId roundedMean plans call = .ok plans' →
    subcategoryMode db orgId = false →
      ((∃ periodId, call = .refresh periodId) ∨ ¬ DoublePlanned db orgId (planAt plans call.target).items) →
        ¬ DoublePlanned db orgId (planAt plans' call.target).items
  /-- The same call again, with nothing else changed, changes nothing. -/
  idempotent : ∀ {plans'}, handlePlanCall db orgId roundedMean plans call = .ok plans' →
    handlePlanCall db orgId roundedMean plans' call = .ok plans'

variable {plans plans' : Plans} {call : PlanCall}

theorem handlePlanCall_eq_ok : handlePlanCall db orgId roundedMean plans call = .ok plans' ↔
    ∃ plan, planAfter db orgId roundedMean plans call = .ok plan ∧
      plans' = fun periodId => if periodId = call.target then some plan else plans periodId := by
  unfold handlePlanCall
  rw [bind_eq_ok]
  simp only [Except.ok.injEq, eq_comm]

theorem planAt_target {plan : ForecastPlan} {call : PlanCall}
    (h : plans' = fun periodId => if periodId = call.target then some plan else plans periodId) :
    planAt plans' call.target = plan := by
  rw [h, planAt, if_pos rfl]
  rfl

/-- The three calls, each with what it wrote. -/
theorem planAfter_cases {plan : ForecastPlan} (h : planAfter db orgId roundedMean plans call = .ok plan) :
    ∃ period, findPeriod db orgId call.target = .ok period ∧
      ((∃ periodId, call = .populate periodId ∧
          populateFromSources db orgId roundedMean period none (planAt plans periodId) = .ok plan) ∨
        (∃ periodId, call = .refresh periodId ∧
          refreshFromSources db orgId roundedMean period (planAt plans periodId) = .ok plan) ∨
        ∃ targetId sourceId, call = .copy targetId sourceId ∧
          (∃ src, findPeriod db orgId sourceId = .ok src) ∧
          copyFromPeriod db orgId (plans sourceId) (planAt plans targetId) = .ok plan) := by
  unfold planAfter at h
  obtain ⟨period, hperiod, h⟩ := bind_eq_ok.mp h
  refine ⟨period, hperiod, ?_⟩
  cases call with
  | populate periodId => exact .inl ⟨periodId, rfl, h⟩
  | refresh periodId => exact .inr (.inl ⟨periodId, rfl, h⟩)
  | copy targetId sourceId =>
    obtain ⟨src, hsrc, h⟩ := bind_eq_ok.mp h
    exact .inr (.inr ⟨targetId, sourceId, rfl, ⟨src, hsrc⟩, h⟩)

theorem planCall_manual {plan : ForecastPlan} (h : planAfter db orgId roundedMean plans call = .ok plan) :
    manualItems (planAt plans call.target).items <+: manualItems plan.items ∧
      ((∀ targetId sourceId, call ≠ .copy targetId sourceId) →
        manualItems plan.items = manualItems (planAt plans call.target).items) := by
  obtain ⟨period, -, hcase⟩ := planAfter_cases h
  rcases hcase with ⟨periodId, rfl, hcall⟩ | ⟨periodId, rfl, hcall⟩ | ⟨targetId, sourceId, rfl, -, hcall⟩
  · obtain ⟨-, -, rows, hrows, hitems⟩ := populateFromSources_eq_ok.mp hcall
    have hgen := (planPopulate_spec (planAt plans periodId).keyed hrows).2.1
    have heq : manualItems plan.items = manualItems (planAt plans periodId).items := by
      rw [hitems, manualItems_append_generated hgen]
    exact ⟨by rw [heq]; exact List.prefix_rfl, fun _ => heq⟩
  · obtain ⟨-, -, rows, hrows, hitems⟩ := refreshFromSources_eq_ok.mp hcall
    have hgen := (planPopulate_spec ((planAt plans periodId).keyed.filter _) hrows).2.1
    have heq : manualItems plan.items = manualItems (planAt plans periodId).items := by
      rw [hitems, manualItems_append_generated hgen, manualItems_idem]
    exact ⟨by rw [heq]; exact List.prefix_rfl, fun _ => heq⟩
  · obtain ⟨src, -, -, -, -, hitems⟩ := copyFromPeriod_eq_ok.mp hcall
    refine ⟨?_, fun hno => absurd rfl (hno targetId sourceId)⟩
    rw [hitems, manualItems, manualItems, List.filter_append]
    exact List.prefix_append _ _

theorem planCall_single {plan : ForecastPlan} (h : planAfter db orgId roundedMean plans call = .ok plan)
    (hmode : subcategoryMode db orgId = false)
    (hpair : (∃ periodId, call = .refresh periodId) ∨
      ¬ DoublePlanned db orgId (planAt plans call.target).items) :
    ¬ DoublePlanned db orgId plan.items := by
  obtain ⟨period, -, hcase⟩ := planAfter_cases h
  rcases hcase with ⟨periodId, rfl, hcall⟩ | ⟨periodId, rfl, hcall⟩ | ⟨targetId, sourceId, rfl, -, hcall⟩
  · obtain ⟨-, -, rows, hrows, hitems⟩ := populateFromSources_eq_ok.mp hcall
    rcases hpair with ⟨p, hp⟩ | hpair
    · cases hp
    · rw [hitems]
      exact (planPopulate_spec (planAt plans periodId).keyed hrows).2.2 hmode hpair
  · -- what a refresh keeps is manual, and a pair has a generated half
    obtain ⟨-, -, rows, hrows, hitems⟩ := refreshFromSources_eq_ok.mp hcall
    rw [hitems]
    refine (planPopulate_spec ((planAt plans periodId).keyed.filter _) hrows).2.2 hmode ?_
    intro hd
    obtain ⟨i, -, s, hs, -, -, -, -, hgen⟩ := hd
    exact hgen (by simpa using (List.mem_filter.mp hs).2)
  · obtain ⟨src, -, -, -, -, hitems⟩ := copyFromPeriod_eq_ok.mp hcall
    rcases hpair with ⟨p, hp⟩ | hpair
    · cases hp
    · rw [hitems]
      exact copy_not_doublePlanned src.items (planAt plans targetId).keyed hpair

/-- The plan a call has written is what the call makes of it. -/
theorem planAfter_again {plan : ForecastPlan} (h : planAfter db orgId roundedMean plans call = .ok plan)
    (hplans : plans' = fun periodId => if periodId = call.target then some plan else plans periodId) :
    planAfter db orgId roundedMean plans' call = .ok plan := by
  have htarget : planAt plans' call.target = plan := planAt_target hplans
  obtain ⟨period, hperiod, hcase⟩ := planAfter_cases h
  unfold planAfter
  refine bind_eq_ok.mpr ⟨period, hperiod, ?_⟩
  rcases hcase with ⟨periodId, rfl, hcall⟩ | ⟨periodId, rfl, hcall⟩ |
    ⟨targetId, sourceId, rfl, ⟨p, hp⟩, hcall⟩
  · obtain ⟨hdraft, hstatus, rows, hrows, hitems⟩ := populateFromSources_eq_ok.mp hcall
    dsimp only [PlanCall.target] at htarget
    dsimp only
    rw [htarget]
    refine populateFromSources_eq_ok.mpr ⟨hstatus ▸ hdraft, rfl, [], ?_, by rw [List.append_nil]⟩
    rw [hitems]
    exact planPopulate_again (planAt plans periodId).keyed hrows
  · obtain ⟨hdraft, hstatus, rows, hrows, hitems⟩ := refreshFromSources_eq_ok.mp hcall
    have hkeyed : Keyed ForecastPlanItem.key (manualItems (planAt plans periodId).items) :=
      (planAt plans periodId).keyed.filter _
    have hgen := (planPopulate_spec hkeyed hrows).2.1
    have hmanual : manualItems plan.items = manualItems (planAt plans periodId).items := by
      rw [hitems, manualItems_append_generated hgen, manualItems_idem]
    dsimp only [PlanCall.target] at htarget
    dsimp only
    rw [htarget]
    refine refreshFromSources_eq_ok.mpr ⟨hstatus ▸ hdraft, rfl, rows, ?_, by rw [hmanual]; exact hitems⟩
    rw [hmanual, hitems]
    exact planPopulate_refreshed hkeyed (fun i hi => (List.mem_filter.mp hi).1) hrows
  · obtain ⟨src, hsrc, hne, hdraft, hstatus, hitems⟩ := copyFromPeriod_eq_ok.mp hcall
    dsimp only [PlanCall.target] at htarget hplans
    refine bind_eq_ok.mpr ⟨p, hp, ?_⟩
    rw [htarget]
    by_cases hself : sourceId = targetId
    · -- the plan copied onto itself
      subst hself
      have hat : planAt plans sourceId = src := by rw [planAt, hsrc]; rfl
      rw [hat, copiedItems_self, List.append_nil] at hitems
      refine copyFromPeriod_eq_ok.mpr ⟨plan, by rw [hplans]; exact if_pos rfl, by rwa [hitems], hstatus ▸ hdraft,
        rfl, ?_⟩
      rw [copiedItems_self, List.append_nil]
    · refine copyFromPeriod_eq_ok.mpr ⟨src, by rw [hplans]; exact (if_neg hself).trans hsrc, hne, hstatus ▸ hdraft,
        rfl, ?_⟩
      have hnone := planCopy_again db orgId src.items (planAt plans targetId).keyed
      rw [← hitems] at hnone
      rw [copiedItems, hnone, List.map_nil, List.append_nil]

/-! ## Errors -/

theorem requireDraft_error {plan : ForecastPlan} {e : ServiceError} (h : requireDraft plan = .error e) :
    e ≠ .integrity := by
  unfold requireDraft refuse at h
  split at h
  · rw [← Except.error.inj h]; simp
  · cases h

theorem planPopulate_error {items : List ForecastPlanItem} {pairs : Option (List ItemKey)} {e : ServiceError}
    (h : planPopulate db orgId roundedMean period items pairs = .error e) : e ≠ .integrity := by
  unfold planPopulate at h
  rcases bind_eq_error.mp h with h | ⟨pEnd, -, h⟩
  · unfold planPeriodEnd at h
    split at h
    · cases h
    · rcases bind_eq_error.mp h with h | ⟨next, -, h⟩
      · unfold plusMonths at h
        split at h
        · rw [← Except.error.inj h]; simp
        · cases h
      · cases h
  · cases h

theorem populateFromSources_error {pairs : Option (List ItemKey)} {plan : ForecastPlan} {e : ServiceError}
    (h : populateFromSources db orgId roundedMean period pairs plan = .error e) : e ≠ .integrity := by
  unfold populateFromSources at h
  rcases bind_eq_error.mp h with h | ⟨_, -, h⟩
  · exact requireDraft_error h
  · rcases bind_eq_error.mp h with h | ⟨rows, hrows, h⟩
    · exact planPopulate_error h
    · rw [withItems_of_keyed (planPopulate_spec plan.keyed hrows).1] at h
      cases h

theorem refreshFromSources_error {plan : ForecastPlan} {e : ServiceError}
    (h : refreshFromSources db orgId roundedMean period plan = .error e) : e ≠ .integrity := by
  unfold refreshFromSources at h
  rcases bind_eq_error.mp h with h | ⟨_, -, h⟩
  · exact requireDraft_error h
  · dsimp only at h
    rw [withItems_of_keyed (plan.keyed.filter _)] at h
    rcases bind_eq_error.mp h with h | ⟨cleared, -, h⟩
    · cases h
    · exact populateFromSources_error h

theorem copyFromPeriod_error {source : Option ForecastPlan} {plan : ForecastPlan} {e : ServiceError}
    (h : copyFromPeriod db orgId source plan = .error e) : e ≠ .integrity := by
  unfold copyFromPeriod at h
  rcases bind_eq_error.mp h with h | ⟨src, -, h⟩
  · rw [found_eq_error.mp h |>.2]; simp
  · rcases bind_eq_error.mp h with h | ⟨_, -, h⟩
    · exact requireDraft_error h
    · rw [← copiedItems, withItems_of_keyed (copiedItems_keyed src.items plan.keyed)] at h
      cases h

theorem handlePlanCall_ne_integrity :
    handlePlanCall db orgId roundedMean plans call ≠ .error .integrity := by
  intro h
  unfold handlePlanCall at h
  rcases bind_eq_error.mp h with h | ⟨plan, -, h⟩
  · unfold planAfter at h
    rcases bind_eq_error.mp h with h | ⟨period, -, h⟩
    · cases (found_eq_error.mp h).2
    · cases call with
      | populate periodId => exact populateFromSources_error h rfl
      | refresh periodId => exact refreshFromSources_error h rfl
      | copy targetId sourceId =>
        rcases bind_eq_error.mp h with h | ⟨_, -, h⟩
        · cases (found_eq_error.mp h).2
        · exact copyFromPeriod_error h rfl
  · cases h

theorem planCall_keeps (db : Db) (orgId : Nat) (roundedMean : Int → Nat → Int) (plans : Plans)
    (call : PlanCall) : PlanCallKeeps db orgId roundedMean plans call where
  unique := handlePlanCall_ne_integrity
  keyed := fun _ => (planAt _ call.target).keyed
  frame := by
    intro plans' h periodId hne
    obtain ⟨plan, -, rfl⟩ := handlePlanCall_eq_ok.mp h
    exact if_neg hne
  manual := by
    intro plans' h
    obtain ⟨plan, hplan, hplans⟩ := handlePlanCall_eq_ok.mp h
    rw [planAt_target hplans]
    exact planCall_manual hplan
  single := by
    intro plans' h hmode hpair
    obtain ⟨plan, hplan, hplans⟩ := handlePlanCall_eq_ok.mp h
    rw [planAt_target hplans]
    exact planCall_single hplan hmode hpair
  idempotent := by
    intro plans' h
    obtain ⟨plan, hplan, hplans⟩ := handlePlanCall_eq_ok.mp h
    refine handlePlanCall_eq_ok.mpr ⟨plan, planAfter_again hplan hplans, ?_⟩
    funext periodId
    rw [hplans]
    by_cases hp : periodId = call.target
    · simp only [if_pos hp]
    · simp only [if_neg hp]

end Calls

/-- A run of calls, each over the books as they then are. -/
def runPlanCalls (orgId : Nat) (roundedMean : Int → Nat → Int) (plans : Plans) (calls : List (Db × PlanCall)) :
    Plans :=
  run (fun plans (c : Db × PlanCall) => handlePlanCall c.1 orgId roundedMean plans c.2) plans calls

/-- The org is in master mode, with the category tree of `db`. -/
def SameTree (orgId : Nat) (db db' : Db) : Prop :=
  subcategoryMode db' orgId = false ∧ ∀ cat, masterOf db' orgId cat = masterOf db orgId cat

theorem doublePlanned_congr {orgId : Nat} {db db' : Db} (h : SameTree orgId db db')
    {items : List ForecastPlanItem} : DoublePlanned db' orgId items ↔ DoublePlanned db orgId items := by
  unfold DoublePlanned
  simp only [h.2]

/-- Plans without a pair stay so over any run of calls made in master mode. -/
theorem runPlanCalls_single {orgId : Nat} {roundedMean : Int → Nat → Int} {db : Db}
    {calls : List (Db × PlanCall)} {plans : Plans} (htree : ∀ c ∈ calls, SameTree orgId db c.1)
    (h : ∀ periodId, ¬ DoublePlanned db orgId (planAt plans periodId).items) :
    ∀ periodId, ¬ DoublePlanned db orgId (planAt (runPlanCalls orgId roundedMean plans calls) periodId).items := by
  induction calls generalizing plans with
  | nil => exact h
  | cons c calls ih =>
    rw [runPlanCalls, run_cons]
    refine ih (fun c' hc' => htree c' (List.mem_cons_of_mem _ hc')) ?_
    have hc := htree c List.mem_cons_self
    refine serve_invariant (I := fun plans => ∀ periodId,
      ¬ DoublePlanned db orgId (planAt plans periodId).items) ?_ h
    intro plans' hcall periodId
    have hkeeps := planCall_keeps c.1 orgId roundedMean plans c.2
    by_cases hp : periodId = c.2.target
    · subst hp
      rw [← doublePlanned_congr hc]
      exact hkeeps.single hcall hc.1 (.inr (by rw [doublePlanned_congr hc]; exact h _))
    · rw [planAt, hkeeps.frame hcall periodId hp]
      exact h periodId

/-- Housing with its subcategory rent, and one billing period. -/
def housingDb : Db where
  categories := (Table.empty.insert { orgId := 1, name := "Housing" }).insert
    { orgId := 1, name := "Rent", parentId := some 1 }
  billingPeriods := Table.empty.insert { orgId := 1, startDate := 738000, endDate := some 738030 }

/-- A plan built side by side in subcategory mode: housing by hand, rent from history. -/
def housingPlan : ForecastPlan where
  items := [⟨1, .expense, 10000, .manual⟩, ⟨2, .expense, 5000, .history⟩]

end BetterDecision
