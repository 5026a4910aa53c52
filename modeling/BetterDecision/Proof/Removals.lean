import BetterDecision.Proof.Postings
import BetterDecision.Proof.Counters

/-!
# Deleting rows

Three paths delete rows, and what makes each of them right is one fact about the rows
it has locked, `Removal`: everything that links to a row it takes is among them, and no
pair is split. A row left behind that linked to one taken is then a duplicate, out of
the balance, and marked rejected before the foreign key takes its link away.
-/

namespace BetterDecision

variable {rules : Rules} {db db' : Db} {orgId : Nat} {locked : List Row} {ids : List Nat}

/-- The rows a delete has locked, and the ids it takes. -/
structure Removal (db : Db) (orgId : Nat) (locked : List Row) (ids : List Nat) : Prop where
  snapshot : ∃ test : Nat → Transaction → Bool,
    locked = db.transactions.select (fun id t => t.orgId == orgId && test id t)
  doomed : ∀ id ∈ ids, ∃ t, (id, t) ∈ locked
  referrers : ∀ i t l, db.transactions.get? i = some t → t.linkedTransactionId = some l → l ∈ ids →
    (i, t) ∈ locked
  pairs : ∀ i a j c, Mutual db.transactions i a j c → i ∈ ids → j ∈ ids

/-! ## The locked rows -/

theorem lockedRow_select {rows : Table Transaction} {test : Nat → Transaction → Bool} {i : Nat}
    {t : Transaction} (h : (i, t) ∈ rows.select test) : lockedRow (rows.select test) i = some (i, t) := by
  obtain ⟨⟨j, c⟩, hc⟩ : ∃ r, lockedRow (rows.select test) i = some r := by
    rw [← Option.isSome_iff_exists, lockedRow, List.find?_isSome]
    exact ⟨(i, t), h, beq_self_eq_true i⟩
  obtain rfl : j = i := by simpa using List.find?_some hc
  have hget := (Table.mem_select.mp (List.mem_of_find?_eq_some hc)).1
  rw [(Table.mem_select.mp h).1] at hget
  rw [hc, Option.some.inj hget]

theorem mem_of_lockedRow {i : Nat} {r : Row} (h : lockedRow locked i = some r) : r ∈ locked ∧ r.1 = i :=
  ⟨List.mem_of_find?_eq_some h, by simpa using List.find?_some h⟩

section Locked

variable (hr : Removal db orgId locked ids)
include hr

theorem Removal.get {i : Nat} {t : Transaction} (h : (i, t) ∈ locked) :
    db.transactions.get? i = some t ∧ t.orgId = orgId := by
  obtain ⟨test, rfl⟩ := hr.snapshot
  rw [Table.mem_select, Bool.and_eq_true, beq_iff_eq] at h
  exact ⟨h.1, h.2.1⟩

theorem Removal.lockedRow {i : Nat} {t : Transaction} (h : (i, t) ∈ locked) :
    lockedRow locked i = some (i, t) := by
  obtain ⟨test, rfl⟩ := hr.snapshot
  exact lockedRow_select h

/-- With its target among the locked rows, the service's test of a row is the report's. -/
theorem Removal.contributes {i : Nat} {t : Transaction}
    (h : ∀ l, t.linkedTransactionId = some l → ∃ c, (l, c) ∈ locked) :
    contributesToCachedBalance (i, t) (lockedPartner locked t) =
      balanceContributionFilter db.transactions (i, t) := by
  refine contributes_of_partner fun l hl => ?_
  obtain ⟨c, hc⟩ := h l hl
  refine ⟨c, ?_, (hr.get hc).1⟩
  rw [lockedPartner, hl, Option.bind_some, hr.lockedRow hc]

/-- A row left behind that links to one taken is out of the balance. -/
theorem Removal.filter_eq_false {i l : Nat} {t : Transaction} (ht : db.transactions.get? i = some t)
    (hi : i ∉ ids) (hl : t.linkedTransactionId = some l) (hmem : l ∈ ids) :
    balanceContributionFilter db.transactions (i, t) = false := by
  have hone : linkOf db.transactions l ≠ some i := by
    intro hback
    obtain ⟨c, hc, hci⟩ := linkOf_eq_some.mp hback
    exact hi (hr.pairs l c i t ⟨hc, ht, hci, hl⟩ hmem)
  unfold balanceContributionFilter
  simp [hl, hone]

end Locked

/-! ## Demotion -/

/-- A row left behind, linked to one taken, and not yet out of the balance by its state. -/
def demotes (ids : List Nat) (i : Nat) (t : Transaction) : Bool :=
  !ids.contains i && t.linkedTransactionId.any (ids.contains ·) && !t.reconciliationState.isReverted

def demote (ids : List Nat) (i : Nat) (t : Transaction) : Transaction :=
  if demotes ids i t then { t with reconciliationState := .rejected } else t

theorem demote_keeps (ids : List Nat) (i : Nat) (t : Transaction) :
    (demote ids i t).linkedTransactionId = t.linkedTransactionId ∧ (demote ids i t).orgId = t.orgId ∧
      (demote ids i t).importBatchId = t.importBatchId := by
  unfold demote
  split <;> exact ⟨rfl, rfl, rfl⟩

theorem demote_of_doomed {i : Nat} (t : Transaction) (hi : i ∈ ids) : demote ids i t = t := by
  unfold demote demotes
  rw [if_neg (by simp [hi])]

/-- **The plan demotes exactly the live rows left behind with a link to one taken.** -/
theorem Removal.demoted (hr : Removal db orgId locked ids) {i : Nat} {t : Transaction}
    (ht : db.transactions.get? i = some t) :
    (i, t) ∈ (planBatchSettlement locked ids).demoted ↔ demotes ids i t = true := by
  simp only [planBatchSettlement, List.mem_filter, demotes, Bool.and_eq_true]
  constructor
  · rintro ⟨-, ⟨⟨hi, hl⟩, hrev⟩, -⟩
    exact ⟨⟨hi, hl⟩, hrev⟩
  · rintro ⟨⟨hi, hl⟩, hrev⟩
    obtain ⟨l, hlink, hmem⟩ := (Option.any_eq_true _ _).mp hl
    have hmem : l ∈ ids := List.contains_iff_mem.mp hmem
    have hi' : i ∉ ids := by simpa using hi
    refine ⟨hr.referrers i t l ht hlink hmem, ⟨⟨hi, hl⟩, hrev⟩, ?_⟩
    rw [hr.contributes, hr.filter_eq_false ht hi' hlink hmem]
    · rfl
    · intro k hk
      rw [hlink] at hk
      obtain rfl := Option.some.inj hk
      exact hr.doomed l hmem

theorem Removal.demoteRows (hr : Removal db orgId locked ids) :
    demoteRows db (planBatchSettlement locked ids).demoted =
      { db with transactions := db.transactions.mapRows (demote ids) } := by
  unfold BetterDecision.demoteRows
  congr 1
  refine Table.mapRows_congr fun i t ht => ?_
  unfold demote
  have hiff : (BetterDecision.lockedRow (planBatchSettlement locked ids).demoted i).isSome = true ↔
      demotes ids i t = true := by
    rw [← hr.demoted ht, BetterDecision.lockedRow, List.find?_isSome]
    constructor
    · rintro ⟨⟨j, c⟩, hc, hj⟩
      obtain rfl : j = i := by simpa using hj
      have hlocked : (j, c) ∈ locked := List.mem_of_mem_filter hc
      have hget := (hr.get hlocked).1
      rw [ht] at hget
      rwa [Option.some.inj hget]
    · exact fun h => ⟨(i, t), h, beq_self_eq_true i⟩
  by_cases h : demotes ids i t = true
  · rw [if_pos h, if_pos (hiff.mpr h)]
  · rw [if_neg h, if_neg (fun h' => h (hiff.mp h'))]

/-! ## What is left -/

/-- The rows after a delete. -/
def remaining (rows : Table Transaction) (ids : List Nat) : Table Transaction :=
  ((rows.mapRows (demote ids)).remove (ids.contains ·)).mapRows (fun _ t => withoutLinkTo ids t)

theorem get?_remaining {rows : Table Transaction} {i : Nat} {t' : Transaction} :
    (remaining rows ids).get? i = some t' ↔
      i ∉ ids ∧ ∃ t, rows.get? i = some t ∧ t' = withoutLinkTo ids (demote ids i t) := by
  rw [remaining, Table.get?_mapRows, Table.get?_remove, Table.get?_mapRows]
  by_cases hi : i ∈ ids
  · rw [if_pos (List.contains_iff_mem.mpr hi)]
    simp [hi]
  · rw [if_neg (fun h => hi (List.contains_iff_mem.mp h))]
    simp only [Option.map_eq_some_iff, hi, not_false_eq_true, true_and]
    constructor
    · rintro ⟨-, ⟨t, ht, rfl⟩, rfl⟩
      exact ⟨t, ht, rfl⟩
    · rintro ⟨t, ht, rfl⟩
      exact ⟨_, ⟨t, ht, rfl⟩, rfl⟩

theorem demote_reverted {i l : Nat} {t : Transaction} (hi : i ∉ ids) (hl : t.linkedTransactionId = some l)
    (hmem : l ∈ ids) : (demote ids i t).reconciliationState.isReverted = true := by
  unfold demote
  by_cases hrev : t.reconciliationState.isReverted = true
  · split
    · rfl
    · exact hrev
  · rw [if_pos (by simp [demotes, hi, hl, hmem, hrev])]
    rfl

/-- What is left behind is erased around, by two moves. -/
theorem Removal.trail (hr : Removal db orgId locked ids) :
    ∃ τ, Trail (Move rules) db.books
      (-(db.transactions.total (fun i t => if ids.contains i then booked db.transactions (i, t) else 0)), τ)
      { db.books with rows := remaining db.transactions ids } := by
  have hdemote : Move rules db.books (shift db.transactions (demote ids))
      { db.books with rows := db.transactions.mapRows (demote ids) } := by
    refine .rewrite (demote ids) ?_ ?_
    · intro i a _
      exact ⟨(demote_keeps ids i a).1, (demote_keeps ids i a).2.1⟩
    · intro i a j c _ hlegs
      have hsame : ∀ k (t : Transaction), (demote ids k t).orgId = t.orgId ∧ (demote ids k t).type = t.type ∧
          (demote ids k t).amount = t.amount ∧ (demote ids k t).accountId = t.accountId := by
        intro k t
        unfold demote
        split <;> exact ⟨rfl, rfl, rfl, rfl⟩
      obtain ⟨ho, ht, ha, hacct⟩ := hsame i a
      obtain ⟨ko, kt, ka, kacct⟩ := hsame j c
      exact ⟨by rw [ho, ko, hlegs.org], by rw [ht, hlegs.expense], by rw [kt, hlegs.income],
        by rw [ha, ka, hlegs.amount], by rw [hacct, kacct]; exact hlegs.accounts,
        by rw [hacct, kacct]; exact hlegs.currency⟩
  have herase : Move rules { db.books with rows := db.transactions.mapRows (demote ids) }
      ((db.transactions.mapRows (demote ids)).total (fun i a =>
        if ids.contains i then -(weigh (db.transactions.mapRows (demote ids)) (i, a)) else 0))
      { db.books with rows := remaining db.transactions ids } := by
    refine .erase (b := { db.books with rows := db.transactions.mapRows (demote ids) }) ids
      fun i a l ha hi hl hmem => ?_
    dsimp only at ha
    rw [Table.get?_mapRows] at ha
    obtain ⟨t, ht, rfl⟩ := Option.map_eq_some_iff.mp ha
    rw [(demote_keeps ids i t).1] at hl
    exact demote_reverted hi hl hmem
  -- a demoted row was out of the balance, and still is
  have hfst : (shift db.transactions (demote ids)).1 = 0 := by
    rw [shift, Table.total_fst, ← Table.total_zero db.transactions]
    refine Table.total_congr fun i t ht => ?_
    show booked db.transactions (i, demote ids i t) - booked db.transactions (i, t) = 0
    by_cases hd : demotes ids i t = true
    · have hlink : ∃ l, t.linkedTransactionId = some l ∧ l ∈ ids ∧ i ∉ ids := by
        simp only [demotes, Bool.and_eq_true] at hd
        obtain ⟨l, hl, hmem⟩ := (Option.any_eq_true _ _).mp hd.1.2
        exact ⟨l, hl, List.contains_iff_mem.mp hmem, by simpa using hd.1.1⟩
      obtain ⟨l, hl, hmem, hi⟩ := hlink
      rw [booked_of_reverted (demote_reverted hi hl hmem), booked_eq_postingIf,
        hr.filter_eq_false ht hi hl hmem, Bool.and_false]
      exact sub_self _
    · rw [demote, if_neg hd, sub_self]
  have herased : ((db.transactions.mapRows (demote ids)).total (fun i a =>
        if ids.contains i then -(weigh (db.transactions.mapRows (demote ids)) (i, a)) else 0)).1 =
      -(db.transactions.total (fun i t => if ids.contains i then booked db.transactions (i, t) else 0)) := by
    rw [Table.total_fst, Table.total_mapRows, ← zero_sub]
    trans db.transactions.total (fun i t =>
      0 - (if ids.contains i then booked db.transactions (i, t) else 0))
    · refine Table.total_congr fun i t ht => ?_
      by_cases hi : ids.contains i
      · rw [if_pos hi, if_pos hi, demote_of_doomed t (List.contains_iff_mem.mp hi), zero_sub]
        show -(booked _ (i, t)) = -(booked _ (i, t))
        rw [booked_congr rfl rfl rfl rfl]
        intro l _
        rw [linkOf_mapRows fun i a _ => (demote_keeps ids i a).1]
      · rw [if_neg hi, if_neg hi, sub_zero]
        rfl
    · rw [Table.total_sub, Table.total_zero]
  refine ⟨_, .cons_of_eq hdemote (.single herase) (Prod.ext ?_ rfl)⟩
  rw [Prod.fst_add, hfst, zero_add, herased]

/-- **The rows left behind are inside the balance iff they were, and reported iff they
were.** -/
theorem Removal.filters (hr : Removal db orgId locked ids) {i : Nat} {t t' : Transaction}
    (ht : db.transactions.get? i = some t) (ht' : (remaining db.transactions ids).get? i = some t') :
    balanceContributionFilter (remaining db.transactions ids) (i, t') =
        balanceContributionFilter db.transactions (i, t) ∧
      reportableTransactionFilter (i, t') = reportableTransactionFilter (i, t) := by
  obtain ⟨hi, a, ha, rfl⟩ := get?_remaining.mp ht'
  obtain rfl : t = a := by rw [ht] at ha; exact Option.some.inj ha
  by_cases hlink : t.linkedTransactionId.any (ids.contains ·) = true
  · obtain ⟨l, hl, hmem⟩ := (Option.any_eq_true _ _).mp hlink
    have hmem : l ∈ ids := List.contains_iff_mem.mp hmem
    have hrev := demote_reverted hi hl hmem
    have hstate : (withoutLinkTo ids (demote ids i t)).reconciliationState.isReverted = true := by
      unfold withoutLinkTo
      split <;> exact hrev
    constructor
    · rw [hr.filter_eq_false ht hi hl hmem, balanceContributionFilter, hstate]
      rfl
    · simp [reportableTransactionFilter, hstate, hl]
  · have hsame : withoutLinkTo ids (demote ids i t) = t := by
      have hno : demotes ids i t = false := by
        rw [demotes, (Bool.not_eq_true _).mp hlink, Bool.and_false, Bool.false_and]
      have hd : demote ids i t = t := by
        rw [demote, hno]
        rfl
      rw [hd, withoutLinkTo, if_neg hlink]
    rw [hsame]
    refine ⟨balanceContributionFilter_congr rfl rfl fun l hl => ?_, rfl⟩
    have hkeep : ids.contains l = false := by simpa [hl] using hlink
    rw [remaining, linkOf_erase, if_neg (by simpa using hkeep),
      linkOf_mapRows fun i a _ => (demote_keeps ids i a).1]
    refine ⟨fun h => (Option.filter_eq_some_iff.mp h).1, fun h => ?_⟩
    exact Option.filter_eq_some_iff.mpr ⟨h, by simpa using hi⟩

/-! ## The counters -/

/-- A row the batch of an org loses, or loses from those that pass a test. -/
def isLost (ids : List Nat) (key : Nat × Nat) (test : ReconciliationState → Bool) (i : Nat)
    (t : Transaction) : Bool :=
  isEnrolled key test t && (ids.contains i || (demotes ids i t && !test .rejected))

def lost (rows : Table Transaction) (ids : List Nat) : Numbers := fun key test =>
  rows.total (fun i t => if isLost ids key test i t then 1 else 0)

theorem lost_nonneg (rows : Table Transaction) (ids : List Nat) (key : Nat × Nat)
    (test : ReconciliationState → Bool) : 0 ≤ lost rows ids key test := Table.total_ite_nonneg _ _

/-- A delete takes from the numbers what is lost. -/
theorem weight_remaining (rows : Table Transaction) (key : Nat × Nat) {test : ReconciliationState → Bool}
    (htest : test .rejected = false ∨ test = fun _ => true) :
    (weight (remaining rows ids)).2 key test = (weight rows).2 key test - lost rows ids key test := by
  rw [weight_snd, weight_snd, lost, ← Table.total_sub, remaining, Table.total_mapRows, Table.total_remove,
    Table.total_mapRows]
  refine Table.total_congr fun i t _ => ?_
  by_cases hi : ids.contains i
  · rw [if_pos hi, isLost, hi, Bool.true_or, Bool.and_true, sub_self]
  · rw [if_neg hi]
    have hunlinked : isEnrolled key test (withoutLinkTo ids (demote ids i t)) =
        isEnrolled key test (demote ids i t) := by
      unfold withoutLinkTo
      split <;> rfl
    rw [hunlinked, isLost, (Bool.not_eq_true _).mp hi, Bool.false_or, demote]
    by_cases hd : demotes ids i t = true
    · rw [if_pos hd, hd, Bool.true_and]
      rcases htest with hrejected | rfl
      · simp [isEnrolled, hrejected]
      · simp [isEnrolled]
    · rw [if_neg hd, (Bool.not_eq_true _).mp hd]
      simp

theorem countEnrolled_select (rows : Table Transaction) (q : Nat → Transaction → Bool)
    (test : ReconciliationState → Bool) (k : Nat) :
    (countEnrolled (rows.select q) test k : Int) = rows.total (fun i t =>
      if q i t && (t.importBatchId == some k && test t.reconciliationState) then 1 else 0) := by
  rw [countEnrolled, List.countP_eq_length_filter,
    Table.filter_select rows q (fun _ t => t.importBatchId == some k && test t.reconciliationState),
    Table.length_select]

section Deltas

variable (hr : Removal db orgId locked ids) (k : Nat)
include hr

theorem Removal.deleted_eq :
    locked.filter (fun r => ids.contains r.1) = db.transactions.select (fun i _ => ids.contains i) := by
  obtain ⟨test, hlocked⟩ := hr.snapshot
  rw [hlocked]
  refine Table.filter_select_eq fun i t ht => ?_
  rw [← hlocked, List.mem_filter]
  refine ⟨fun h => h.2, fun hi => ⟨?_, hi⟩⟩
  obtain ⟨c, hc⟩ := hr.doomed i (List.contains_iff_mem.mp hi)
  have hget := (hr.get hc).1
  rw [ht] at hget
  rwa [Option.some.inj hget]

theorem Removal.demoted_eq :
    (planBatchSettlement locked ids).demoted = db.transactions.select (demotes ids) := by
  obtain ⟨test, hlocked⟩ := hr.snapshot
  have hdemoted := fun {i t} => hr.demoted (i := i) (t := t)
  unfold planBatchSettlement at hdemoted ⊢
  dsimp only at hdemoted ⊢
  rw [hlocked] at hdemoted ⊢
  exact Table.filter_select_eq fun i t ht => hdemoted ht

/-- A row taken or demoted is the org's. -/
theorem Removal.org {i : Nat} {t : Transaction} (ht : db.transactions.get? i = some t)
    (h : ids.contains i = true ∨ demotes ids i t = true) : t.orgId = orgId := by
  rcases h with hi | hd
  · obtain ⟨c, hc⟩ := hr.doomed i (List.contains_iff_mem.mp hi)
    obtain ⟨hget, horg⟩ := hr.get hc
    rw [ht] at hget
    rw [Option.some.inj hget, horg]
  · exact (hr.get (List.mem_of_mem_filter ((hr.demoted ht).mpr hd))).2

theorem Removal.rowDelta :
    ((planBatchSettlement locked ids).rowDelta k : Int) =
      lost db.transactions ids (orgId, k) (fun _ => true) := by
  show (countEnrolled (locked.filter (fun r => ids.contains r.1)) (fun _ => true) k : Int) = _
  rw [hr.deleted_eq, countEnrolled_select, lost]
  refine Table.total_congr fun i t ht => ?_
  by_cases hi : ids.contains i = true
  · have horg := hr.org ht (.inl hi)
    rw [isLost, isEnrolled, hi, horg, beq_self_eq_true]
    simp
  · rw [isLost, (Bool.not_eq_true _).mp hi]
    simp

theorem Removal.stateDelta (test : ReconciliationState → Bool) (htest : test .rejected = false) :
    (countEnrolled (locked.filter (fun r => ids.contains r.1) ++
      (planBatchSettlement locked ids).demoted) test k : Int) =
      lost db.transactions ids (orgId, k) test := by
  rw [countEnrolled, List.countP_append, Nat.cast_add]
  have hdeleted := countEnrolled_select db.transactions (fun i _ => ids.contains i) test k
  have hdemoted := countEnrolled_select db.transactions (demotes ids) test k
  rw [← hr.deleted_eq, countEnrolled] at hdeleted
  rw [← hr.demoted_eq, countEnrolled] at hdemoted
  rw [hdeleted, hdemoted, ← Table.total_add, lost]
  refine Table.total_congr fun i t ht => ?_
  by_cases hi : ids.contains i = true
  · have horg := hr.org ht (.inl hi)
    have hd : demotes ids i t = false := by rw [demotes, hi]; rfl
    rw [isLost, isEnrolled, hi, hd, horg, beq_self_eq_true]
    simp
  · by_cases hd : demotes ids i t = true
    · have horg := hr.org ht (.inr hd)
      rw [isLost, isEnrolled, (Bool.not_eq_true _).mp hi, hd, horg, beq_self_eq_true, htest]
      simp
    · rw [isLost, (Bool.not_eq_true _).mp hi, (Bool.not_eq_true _).mp hd]
      simp

/-- A batch of another org loses nothing. -/
theorem Removal.lost_eq_zero {other : Nat} (hne : other ≠ orgId) (test : ReconciliationState → Bool) :
    lost db.transactions ids (other, k) test = 0 := by
  refine (Table.total_congr fun i t ht => if_neg ?_).trans (Table.total_zero db.transactions)
  intro hlost
  simp only [isLost, isEnrolled, Bool.and_eq_true, Bool.or_eq_true, beq_iff_eq] at hlost
  refine hne (hlost.1.1.1.symm.trans (hr.org ht ?_))
  exact hlost.2.imp_right fun h => h.1

end Deltas

theorem floored_eq {count : Int} {n : Nat} (h : 0 ≤ count - n) : floored count n = count - n := by
  unfold floored
  split
  · omega
  · exact if_neg (by omega)

/-- **The counters after the deltas are the numbers of rows left.** No floor is hit. -/
theorem Removal.counted_settleCounters (hr : Removal db orgId locked ids)
    (h : Counted (weight db.transactions).2 db.importBatches) :
    Counted (weight (remaining db.transactions ids)).2
      (settleCounters db orgId (planBatchSettlement locked ids)).importBatches := by
  have hleft : ∀ key (test : ReconciliationState → Bool), test .rejected = false ∨ test = (fun _ => true) →
      0 ≤ (weight db.transactions).2 key test - lost db.transactions ids key test := by
    intro key test htest
    rw [← weight_remaining db.transactions key htest]
    exact weight_nonneg _ _ _
  -- a batch as it is left, from the batch it was
  have hget : ∀ k b', (settleCounters db orgId (planBatchSettlement locked ids)).importBatches.get? k = some b' →
      ∃ b, db.importBatches.get? k = some b ∧ b'.orgId = b.orgId ∧
        b'.rowCount = b.rowCount - lost db.transactions ids (b.orgId, k) (fun _ => true) ∧
        b'.acceptedCount = b.acceptedCount - lost db.transactions ids (b.orgId, k) (· == .accepted) ∧
        b'.pendingCount = b.pendingCount - lost db.transactions ids (b.orgId, k) (·.isPending) := by
    intro k b' hb'
    obtain ⟨b, hb, rfl⟩ := Option.map_eq_some_iff.mp ((Table.get?_mapRows _ _ _).symm.trans hb')
    refine ⟨b, hb, ?_⟩
    by_cases horg : b.orgId = orgId
    · rw [if_pos horg]
      subst horg
      refine ⟨rfl, ?_, ?_, ?_⟩
      · have hd := hr.rowDelta k
        have hl := hleft (b.orgId, k) (fun _ => true) (.inr rfl)
        rw [← h.rows k b hb, ← hd] at hl
        rw [← hd]
        exact floored_eq hl
      · have hd := hr.stateDelta k (· == .accepted) rfl
        have hl := hleft (b.orgId, k) (· == .accepted) (.inl rfl)
        rw [← h.accepted k b hb, ← hd] at hl
        rw [← hd]
        exact floored_eq hl
      · have hd := hr.stateDelta k (·.isPending) rfl
        have hl := hleft (b.orgId, k) (·.isPending) (.inl rfl)
        rw [← h.pending k b hb, ← hd] at hl
        rw [← hd]
        exact floored_eq hl
    · rw [if_neg horg]
      simp only [hr.lost_eq_zero k horg, sub_zero, and_self]
  refine ⟨?_, ?_, ?_, ?_⟩
  · intro k b' hb'
    obtain ⟨b, hb, horg, hrows, -, -⟩ := hget k b' hb'
    rw [hrows, horg, weight_remaining _ _ (.inr rfl), h.rows k b hb]
  · intro k b' hb'
    obtain ⟨b, hb, horg, -, hacc, -⟩ := hget k b' hb'
    rw [hacc, horg, weight_remaining _ _ (.inl rfl), h.accepted k b hb]
  · intro k b' hb'
    obtain ⟨b, hb, horg, -, -, hpend⟩ := hget k b' hb'
    rw [hpend, horg, weight_remaining _ _ (.inl rfl), h.pending k b hb]
  · intro org k hne
    have hpos := weight_nonneg (remaining db.transactions ids) (org, k) (fun _ => true)
    rw [weight_remaining _ _ (.inr rfl)] at hne hpos
    have hlost := lost_nonneg db.transactions ids (org, k) (fun _ => true)
    obtain ⟨b, hb, horg⟩ := h.homes org k (by omega)
    refine ⟨_, by rw [settleCounters, Table.get?_mapRows, hb, Option.map_some], ?_⟩
    split <;> exact horg

theorem shut_settleCounters (h : Shut (weight db.transactions).2 db.importBatches) :
    Shut (weight (remaining db.transactions ids)).2
      (settleCounters db orgId (planBatchSettlement locked ids)).importBatches := by
  intro k b' hb' hclosed
  obtain ⟨b, hb, rfl⟩ := Option.map_eq_some_iff.mp ((Table.get?_mapRows _ _ _).symm.trans hb')
  have hsame : ∀ c : ImportBatch, c.orgId = b.orgId → c.status = b.status → c.status = .closed →
      (weight (remaining db.transactions ids)).2 (c.orgId, k) (·.isPending) = 0 := by
    intro c horg hstatus hc
    have hzero := h k b hb (hstatus.symm.trans hc)
    have hpos := weight_nonneg (remaining db.transactions ids) (b.orgId, k) (·.isPending)
    have hlost := lost_nonneg db.transactions ids (b.orgId, k) (·.isPending)
    rw [weight_remaining _ _ (.inl rfl), hzero] at hpos
    rw [horg, weight_remaining _ _ (.inl rfl), hzero]
    omega
  split at hclosed
  · rw [if_pos ‹_›]
    exact hsame _ rfl rfl hclosed
  · rw [if_neg ‹_›]
    exact hsame _ rfl rfl hclosed

/-- The batches the plan moves, looked at one by one. -/
theorem closeBatches_keeps {rows : Table Transaction} (exclude ks : List Nat) (db : Db)
    (hrows : ∀ k : Nat, rows.total (fun _ t =>
        if t.importBatchId = some k ∧ t.reconciliationState.isPending then (1 : Int) else 0) =
      db.transactions.total (fun i t =>
        if t.importBatchId = some k ∧ t.reconciliationState.isPending ∧ i ∉ exclude then 1 else 0)) :
    ∃ importBatches, ks.foldl (fun db k => closeBatchIfComplete db k exclude) db = { db with importBatches } ∧
      (Counted (weight rows).2 db.importBatches → Counted (weight rows).2 importBatches ∧
        (Shut (weight rows).2 db.importBatches → Shut (weight rows).2 importBatches)) := by
  induction ks generalizing db with
  | nil => exact ⟨db.importBatches, rfl, fun hc => ⟨hc, id⟩⟩
  | cons k ks ih =>
    rw [List.foldl_cons]
    obtain ⟨batches, hbatches⟩ := closeBatchIfComplete_elsewhere db k exclude
    have hkeeps : Counted (weight rows).2 db.importBatches →
        Counted (weight rows).2 (closeBatchIfComplete db k exclude).importBatches ∧ _ := fun hc =>
      closeBatchIfComplete_keeps (fun hc b hb => pendingRowsOf_eq hc hb (hrows k)) hc
    rw [hbatches] at hkeeps ⊢
    obtain ⟨importBatches, hfold, hrest⟩ := ih { db with importBatches := batches } hrows
    refine ⟨importBatches, hfold, fun hc => ?_⟩
    obtain ⟨hc', hs'⟩ := hkeeps hc
    obtain ⟨hc'', hs''⟩ := hrest hc'
    exact ⟨hc'', fun hs => hs'' (hs' hs)⟩

/-- **Settled, then deleted**: the rows that remain, and the counters right. -/
theorem Removal.settled (hr : Removal db orgId locked ids) :
    ∃ importBatches, deleteTransactions (applyBatchSettlement db orgId (planBatchSettlement locked ids)) ids =
        { db with transactions := remaining db.transactions ids, importBatches } ∧
      (Counted (weight db.transactions).2 db.importBatches →
        Counted (weight (remaining db.transactions ids)).2 importBatches ∧
          (Shut (weight db.transactions).2 db.importBatches →
            Shut (weight (remaining db.transactions ids)).2 importBatches)) := by
  have hrows : ∀ k : Nat, (remaining db.transactions ids).total (fun _ t =>
        if t.importBatchId = some k ∧ t.reconciliationState.isPending then (1 : Int) else 0) =
      (db.transactions.mapRows (demote ids)).total (fun i t =>
        if t.importBatchId = some k ∧ t.reconciliationState.isPending ∧ i ∉ ids then 1 else 0) := by
    intro k
    rw [remaining, Table.total_mapRows, Table.total_remove]
    refine Table.total_congr fun i t _ => ?_
    have hsame : (withoutLinkTo ids t).importBatchId = t.importBatchId ∧
        (withoutLinkTo ids t).reconciliationState = t.reconciliationState := by
      unfold withoutLinkTo
      split <;> exact ⟨rfl, rfl⟩
    rw [hsame.1, hsame.2]
    by_cases hi : i ∈ ids
    · rw [if_pos (List.contains_iff_mem.mpr hi), if_neg (by simp [hi])]
    · rw [if_neg (fun h => hi (List.contains_iff_mem.mp h))]
      simp [hi]
  unfold applyBatchSettlement
  rw [hr.demoteRows]
  obtain ⟨importBatches, hfold, hkeeps⟩ := closeBatches_keeps ids
    (batchesToRecheck (settleCounters { db with transactions := db.transactions.mapRows (demote ids) } orgId
      (planBatchSettlement locked ids)) orgId (planBatchSettlement locked ids))
    (settleCounters { db with transactions := db.transactions.mapRows (demote ids) } orgId
      (planBatchSettlement locked ids)) hrows
  refine ⟨importBatches, ?_, fun hc => ?_⟩
  · dsimp only
    rw [show (planBatchSettlement locked ids).deletedIds = ids from rfl, hfold]
    rfl
  · obtain ⟨hc', hs'⟩ := hkeeps (hr.counted_settleCounters hc)
    exact ⟨hc', fun hs => hs' (shut_settleCounters hs)⟩

end BetterDecision
