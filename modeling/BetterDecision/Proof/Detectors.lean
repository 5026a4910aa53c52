import BetterDecision.Lib.Keyed
import BetterDecision.Model.Detectors

/-!
# One query for a file answers as one query a row

The batch fetches more than any of its keys asks for and narrows the result down to what
the key's own query would have fetched. The sort is by distance and id, so it ends in one
list whatever the order the rows came in (`closestRows_perm`), and the cap is applied
after it.
-/

namespace BetterDecision

/-- Rows of one table in whatever order are sorted into the same list. -/
theorem closestRows_perm {t : Table Transaction} {rows rows' : List Row} (hrows : ∀ r ∈ rows, t.get? r.1 = some r.2)
    (hperm : rows.Perm rows') (date : Int) (cap : Nat) : closestRows date cap rows = closestRows date cap rows' := by
  have : Std.Total (CloserRow date) := ⟨fun r q => by unfold CloserRow; omega⟩
  have : IsTrans Row (CloserRow date) := ⟨fun r q s => by unfold CloserRow; omega⟩
  unfold closestRows
  congr 1
  refine List.Perm.eq_of_pairwise (fun r q hr hq hle hge => ?_) (List.pairwise_insertionSort _ rows)
    (List.pairwise_insertionSort _ rows')
    (((List.perm_insertionSort _ rows).trans hperm).trans (List.perm_insertionSort _ rows').symm)
  -- as close and with the same id: it is one row
  have hid : r.1 = q.1 := by
    unfold CloserRow at hle hge
    omega
  have hr := hrows r ((List.perm_insertionSort _ rows).mem_iff.mp hr)
  have hq := hrows q (hperm.mem_iff.mpr ((List.perm_insertionSort _ rows').mem_iff.mp hq))
  rw [hid, hq] at hr
  exact Prod.ext hid (Option.some.inj hr).symm

/-- The span of the keys covers the window of each. -/
theorem inSpan_of_mem {keys : List DetectorKey} {key : DetectorKey} (hkey : key ∈ keys) {date : Int}
    (hfirst : key.date - 3 ≤ date) (hlast : date ≤ key.date + 3) : inSpan keys date = true := by
  have hmem : key.date ∈ keys.map (·.date) := List.mem_map_of_mem hkey
  unfold inSpan
  rcases hmin : (keys.map (·.date)).min? with _ | first
  · rw [List.min?_eq_none_iff.mp hmin] at hmem
    cases hmem
  · rcases hmax : (keys.map (·.date)).max? with _ | last
    · rw [List.max?_eq_none_iff.mp hmax] at hmem
      cases hmem
    · have hle := (List.min?_eq_some_iff.mp hmin).2 _ hmem
      have hge := (List.max?_eq_some_iff.mp hmax).2 _ hmem
      rw [hmin, hmax]
      simp only [Option.any_some, Bool.and_eq_true, decide_eq_true_eq]
      omega

/-- The slice of a key is the answer of the key's own query. -/
theorem perRowSlice_lookup {t : Table Transaction} {order order' : RowOrder} {wide narrow : Nat → Transaction → Bool}
    {keys : List DetectorKey} {key : DetectorKey} (hkey : key ∈ keys) {typeFor : TransactionType → TransactionType}
    (hnarrow : ∀ i x, t.get? i = some x → (narrow i x = true ↔ wide i x = true ∧ x.type = typeFor key.type ∧
      (x.amount : Int) = key.amount ∧ key.date - 3 ≤ x.date ∧ x.date ≤ key.date + 3)) (cap : Nat) :
    (perRowSlice (order.arrange (t.select wide)) keys typeFor cap).lookup key =
      some (closestRows key.date cap (order'.arrange (t.select narrow))) := by
  have hslice : ∀ keys : List DetectorKey, key ∈ keys →
      (perRowSlice (order.arrange (t.select wide)) keys typeFor cap).lookup key =
        some (closestRows key.date cap (((order.arrange (t.select wide)).filter
          (fun r => r.2.type == typeFor key.type && (r.2.amount : Int) == key.amount)).filter
            (fun r => decide (key.date - 3 ≤ r.2.date ∧ r.2.date ≤ key.date + 3)))) := by
    intro keys hkey
    induction keys with
    | nil => cases hkey
    | cons k keys ih =>
      unfold perRowSlice
      rw [List.map_cons, List.lookup_cons]
      by_cases hk : key = k
      · subst hk
        rw [beq_self_eq_true]
      · rw [beq_eq_false_iff_ne.mpr hk]
        exact ih ((List.mem_cons.mp hkey).resolve_left hk)
  rw [hslice keys hkey]
  have hselect : ((t.select wide).filter
      (fun r => r.2.type == typeFor key.type && (r.2.amount : Int) == key.amount)).filter
        (fun r => decide (key.date - 3 ≤ r.2.date ∧ r.2.date ≤ key.date + 3)) = t.select narrow := by
    rw [List.filter_filter]
    refine Table.filter_select_eq fun i x hx => ?_
    rw [hnarrow i x hx, List.mem_filter, Table.mem_select]
    simp only [hx, true_and, Bool.and_eq_true, beq_iff_eq, decide_eq_true_eq]
    tauto
  have hrows : ∀ r ∈ t.select narrow, t.get? r.1 = some r.2 := fun r hr => (Table.mem_select.mp hr).1
  have hsliced := ((order.perm (t.select wide)).filter
    (fun r => r.2.type == typeFor key.type && (r.2.amount : Int) == key.amount)).filter
      (fun r => decide (key.date - 3 ≤ r.2.date ∧ r.2.date ≤ key.date + 3))
  rw [hselect] at hsliced
  rw [closestRows_perm (fun r hr => hrows r (hsliced.mem_iff.mp hr)) hsliced,
    closestRows_perm hrows (order'.perm (t.select narrow)).symm]

theorem findMatchCandidatesBatch_lookup (db : Db) (order order' : RowOrder) (orgId accountIdExcluded : Nat)
    (currency : String) {keys : List DetectorKey} {key : DetectorKey} (hkey : key ∈ keys) :
    (findMatchCandidatesBatch db order orgId accountIdExcluded currency keys).lookup key =
      some (findMatchCandidates db order' orgId accountIdExcluded currency key.type key.amount key.date) := by
  unfold findMatchCandidatesBatch findMatchCandidates
  rw [if_neg (List.ne_nil_of_mem hkey)]
  refine perRowSlice_lookup hkey (fun i x _ => ?_) 25
  have htype : opposite key.type ∈ keys.map (fun k => opposite k.type) := List.mem_map_of_mem hkey
  have hamount : key.amount ∈ keys.map (·.amount) := List.mem_map_of_mem hkey
  have hspan : key.date - 3 ≤ x.date → x.date ≤ key.date + 3 → inSpan keys x.date = true := inSpan_of_mem hkey
  simp only [Bool.and_eq_true, beq_iff_eq, decide_eq_true_eq, List.contains_iff_mem]
  constructor
  · intro ⟨⟨⟨⟨⟨⟨⟨⟨⟨⟨horg, hacc⟩, ht⟩, ha⟩, hs⟩, hl⟩, hrec⟩, hm⟩, hfirst⟩, hlast⟩, hcur⟩
    exact ⟨⟨⟨⟨⟨⟨⟨⟨⟨⟨horg, hacc⟩, ht ▸ htype⟩, ha ▸ hamount⟩, hs⟩, hl⟩, hrec⟩, hm⟩, hspan hfirst hlast⟩, hcur⟩,
      ht, ha, hfirst, hlast⟩
  · intro ⟨⟨⟨⟨⟨⟨⟨⟨⟨⟨horg, hacc⟩, _⟩, _⟩, hs⟩, hl⟩, hrec⟩, hm⟩, _⟩, hcur⟩, ht, ha, hfirst, hlast⟩
    exact ⟨⟨⟨⟨⟨⟨⟨⟨⟨⟨horg, hacc⟩, ht⟩, ha⟩, hs⟩, hl⟩, hrec⟩, hm⟩, hfirst⟩, hlast⟩, hcur⟩

theorem findDuplicateOfLinkedLegBatch_lookup (db : Db) (order order' : RowOrder) (orgId accountId : Nat)
    (currency : String) {keys : List DetectorKey} {key : DetectorKey} (hkey : key ∈ keys) :
    (findDuplicateOfLinkedLegBatch db order orgId accountId currency keys).lookup key =
      some (findDuplicateOfLinkedLeg db order' orgId accountId currency key.type key.amount key.date) := by
  unfold findDuplicateOfLinkedLegBatch findDuplicateOfLinkedLeg
  rw [if_neg (List.ne_nil_of_mem hkey)]
  refine perRowSlice_lookup hkey (fun i x _ => ?_) 10
  have htype : key.type ∈ keys.map (·.type) := List.mem_map_of_mem hkey
  have hamount : key.amount ∈ keys.map (·.amount) := List.mem_map_of_mem hkey
  have hspan : key.date - 3 ≤ x.date → x.date ≤ key.date + 3 → inSpan keys x.date = true := inSpan_of_mem hkey
  simp only [Bool.and_eq_true, beq_iff_eq, decide_eq_true_eq, List.contains_iff_mem]
  constructor
  · intro ⟨⟨⟨⟨⟨⟨⟨⟨horg, hacc⟩, ht⟩, ha⟩, hl⟩, hm⟩, hfirst⟩, hlast⟩, hcur⟩
    exact ⟨⟨⟨⟨⟨⟨⟨⟨horg, hacc⟩, ht ▸ htype⟩, ha ▸ hamount⟩, hl⟩, hm⟩, hspan hfirst hlast⟩, hcur⟩, ht, ha, hfirst, hlast⟩
  · intro ⟨⟨⟨⟨⟨⟨⟨⟨horg, hacc⟩, _⟩, _⟩, hl⟩, hm⟩, _⟩, hcur⟩, ht, ha, hfirst, hlast⟩
    exact ⟨⟨⟨⟨⟨⟨⟨⟨horg, hacc⟩, ht⟩, ha⟩, hl⟩, hm⟩, hfirst⟩, hlast⟩, hcur⟩

private def previewDb : Db where
  accounts := (Table.empty.insert { orgId := 1, name := "Checking" }).insert { orgId := 1, name := "Savings" }
  transactions := (Table.empty.insert
      { orgId := 1, accountId := 2, categoryId := 1, description := "From checking", amount := ⟨5000, by decide⟩
        type := .income, date := 739002 }).insert
    { orgId := 1, accountId := 2, categoryId := 1, description := "From checking", amount := ⟨5000, by decide⟩
      type := .income, date := 739000 }

private def asStored : RowOrder where
  arrange := fun rows => rows
  perm := fun _ => List.Perm.refl _

private def newestFirst : RowOrder where
  arrange := List.reverse
  perm := List.reverse_perm

end BetterDecision
