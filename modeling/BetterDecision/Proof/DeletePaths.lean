import BetterDecision.Proof.Edits
import BetterDecision.Proof.Removals
import BetterDecision.Model.Recurring

/-!
# The three paths that delete rows

A row by id, many rows by id, and the pending rows of a series that is stopped or
deleted. Each locks rows in its own way and takes its own choice of them, and each
turns out to be a `Removal`. The user paths also put the balance back first, and need
for that the other end of every link they take.
-/

namespace BetterDecision

variable {rules : Rules} {db db' : Db} {orgId : Nat}

/-- A delete as it is seen from outside: the rows that remain, the totals and the counters
accounted for. -/
structure Deleted (rules : Rules) (db : Db) (ids : List Nat) (db' : Db) : Prop where
  rows : db'.transactions = remaining db.transactions ids
  moved : Moved rules db db'
  recounted : Recounted db db'

/-! ## By id -/

theorem revertRows_ok {rows : List Row} (horg : ∀ r ∈ rows, r.2.orgId = orgId)
    (h : rows.foldlM (fun db r => revertRow db orgId r.2) db = .ok db') :
    db' = db.credited (-(rows.map (fun r => posting r.2)).sum) := by
  induction rows generalizing db with
  | nil =>
    rw [List.foldlM_nil, pure_eq_ok] at h
    rw [List.map_nil, List.sum_nil, neg_zero, Db.credited_zero, h]
  | cons r rows ih =>
    rw [List.foldlM_cons] at h
    obtain ⟨db₁, hdb₁, h⟩ := bind_eq_ok.mp h
    obtain rfl := revertRow_ok (horg r (List.mem_cons_self ..)) hdb₁
    rw [ih (fun r hr => horg r (List.mem_cons_of_mem _ hr)) h, Db.credited, Db.credited, credit_credit,
      List.map_cons, List.sum_cons, neg_add]
    rfl

section Locked

variable {locked : List Row} {ids : List Nat} (hr : Removal db orgId locked ids)
  (htargets : ∀ i t l, i ∈ ids → db.transactions.get? i = some t → t.linkedTransactionId = some l →
    ∃ c, (l, c) ∈ locked)
include hr htargets

theorem Removal.rowsToRevert :
    ((BetterDecision.rowsToRevert locked ids).map (fun r => posting r.2)).sum =
      db.transactions.total (fun i t => if ids.contains i then booked db.transactions (i, t) else 0) := by
  obtain ⟨test, hlocked⟩ := hr.snapshot
  have hrows : BetterDecision.rowsToRevert locked ids = db.transactions.select (fun i t =>
      ids.contains i && (t.status == .settled && balanceContributionFilter db.transactions (i, t))) := by
    have hmem : ∀ i t, db.transactions.get? i = some t → ((i, t) ∈ BetterDecision.rowsToRevert locked ids ↔
        (ids.contains i && (t.status == .settled && balanceContributionFilter db.transactions (i, t))) = true) := by
      intro i t ht
      rw [BetterDecision.rowsToRevert, List.mem_filter]
      by_cases hi : ids.contains i = true
      · have hcontributes := hr.contributes (i := i)
          (fun l hl => htargets i t l (List.contains_iff_mem.mp hi) ht hl)
        have hin : (i, t) ∈ locked := by
          have hdeleted := hr.deleted_eq
          have : (i, t) ∈ locked.filter (fun r => ids.contains r.1) := by
            rw [hdeleted]
            exact Table.mem_select.mpr ⟨ht, hi⟩
          exact List.mem_of_mem_filter this
        rw [hcontributes]
        simp only [hi, hin, Bool.true_and, true_and]
      · simp only [(Bool.not_eq_true _).mp hi, Bool.false_and, Bool.false_eq_true, and_false]
    unfold BetterDecision.rowsToRevert at hmem ⊢
    rw [hlocked] at hmem ⊢
    exact Table.filter_select_eq hmem
  rw [hrows, Table.sum_select db.transactions _ (fun _ t => posting t)]
  refine Table.total_congr fun i t _ => ?_
  rw [booked_eq_postingIf, postingIf]
  by_cases hi : ids.contains i = true
  · rw [hi, Bool.true_and, if_pos rfl, beq_eq_decide]
  · simp only [(Bool.not_eq_true _).mp hi, Bool.false_and, Bool.false_eq_true, if_false]

/-- **Reverted, settled and deleted.** -/
theorem Removal.deleteLocked (h : deleteLocked db orgId locked ids = .ok db') :
    Deleted rules db ids db' := by
  obtain ⟨-, -, h⟩ := bind_eq_ok.mp h
  obtain ⟨db₁, hdb₁, h⟩ := bind_eq_ok.mp h
  have horg : ∀ r ∈ BetterDecision.rowsToRevert locked ids, r.2.orgId = orgId :=
    fun r hmem => (hr.get (List.mem_of_mem_filter hmem)).2
  obtain rfl := revertRows_ok horg hdb₁
  rw [hr.rowsToRevert htargets] at h
  obtain rfl := Except.ok.inj h
  have hr₁ : Removal (db.credited (-(db.transactions.total (fun i t =>
      if ids.contains i then booked db.transactions (i, t) else 0)))) orgId locked ids :=
    ⟨hr.snapshot, hr.doomed, hr.referrers, hr.pairs⟩
  obtain ⟨importBatches, hdb', hkeeps⟩ := hr₁.settled
  obtain ⟨τ, htrail⟩ : ∃ τ, Trail (Move rules) db.books (_, τ) _ := hr.trail
  rw [hdb']
  exact ⟨rfl, ⟨_, htrail, rfl⟩, fun hc => (hkeeps hc).1, fun hc => (hkeeps hc).2⟩

end Locked

section LockForDelete

variable {requested : List Nat}

theorem mem_lockForDelete {i : Nat} {t : Transaction} (ht : db.transactions.get? i = some t)
    (horg : t.orgId = orgId)
    (h : (i ∈ requested) ∨ (∃ j c, db.transactions.get? j = some c ∧ c.orgId = orgId ∧ j ∈ requested ∧
        (c.linkedTransactionId = some i ∨ t.linkedTransactionId = some j ∨
          ∃ l, c.linkedTransactionId = some l ∧ t.linkedTransactionId = some l))) :
    (i, t) ∈ lockForDelete db orgId requested := by
  rw [lockForDelete, Table.mem_select]
  refine ⟨ht, ?_⟩
  rw [Bool.and_eq_true, Bool.or_eq_true, beq_iff_eq, List.contains_iff_mem, Option.any_eq_true]
  refine ⟨horg, ?_⟩
  have hasked : ∀ j c, db.transactions.get? j = some c → c.orgId = orgId → j ∈ requested →
      (j, c) ∈ db.transactions.select (fun id t => t.orgId == orgId && requested.contains id) := by
    intro j c hc hcorg hj
    rw [Table.mem_select, Bool.and_eq_true, beq_iff_eq, List.contains_iff_mem]
    exact ⟨hc, hcorg, hj⟩
  rcases h with hi | ⟨j, c, hc, hcorg, hj, hlink | hlink | ⟨l, hcl, htl⟩⟩
  · exact .inl (List.mem_append_left _ (List.mem_map_of_mem (hasked i t ht horg hi)))
  · exact .inl (List.mem_append_right _ (List.mem_filterMap.mpr ⟨_, hasked j c hc hcorg hj, hlink⟩))
  · refine .inr ⟨j, hlink, List.contains_iff_mem.mpr ?_⟩
    exact List.mem_append_left _ (List.mem_map_of_mem (hasked j c hc hcorg hj))
  · refine .inr ⟨l, htl, List.contains_iff_mem.mpr ?_⟩
    exact List.mem_append_right _ (List.mem_filterMap.mpr ⟨_, hasked j c hc hcorg hj, hcl⟩)

/-- A row asked for takes its other leg with it, and nothing else. -/
theorem mem_withPartner (hl : WellLinked db.transactions) {i d : Nat} {t : Transaction}
    (ht : db.transactions.get? i = some t) (horg : t.orgId = orgId) (hi : i ∈ requested) :
    d ∈ withPartner (lockForDelete db orgId requested) (i, t) ↔
      d = i ∨ ∃ c, Mutual db.transactions i t d c := by
  have hlinked : lockedPartner (lockForDelete db orgId requested) t = linkedRow db orgId t := by
    rcases hlink : t.linkedTransactionId with _ | l
    · rw [lockedPartner, linkedRow, hlink]
      rfl
    · obtain ⟨c, hc, hget, -, hcorg⟩ := linkedRow_of_link hl ht horg hlink
      rw [hc, lockedPartner, hlink, Option.bind_some]
      have hmem := mem_lockForDelete hget hcorg (.inr ⟨i, t, ht, horg, hi, .inl hlink⟩)
      unfold lockForDelete at hmem ⊢
      exact lockedRow_select hmem
  rw [withPartner, hlinked, List.mem_cons, List.mem_map]
  constructor
  · rintro (rfl | ⟨⟨l, c⟩, hc, rfl⟩)
    · exact .inl rfl
    · obtain ⟨hc, hpair⟩ := Option.filter_eq_some_iff.mp (Option.mem_toList.mp hc)
      exact .inr ⟨c, (reciprocal_iff hl ht horg hc).mp hpair⟩
  · rintro (rfl | ⟨c, hm⟩)
    · exact .inl rfl
    · obtain ⟨c', hc', hget, -⟩ := linkedRow_of_link hl ht horg hm.there
      obtain rfl : c = c' := by rw [hm.right] at hget; exact Option.some.inj hget
      refine .inr ⟨(d, c), Option.mem_toList.mpr (Option.filter_eq_some_iff.mpr ⟨hc', ?_⟩), rfl⟩
      exact (reciprocal_iff hl ht horg hc').mpr hm

variable {wanted : List Row}
  (hw : ∀ r ∈ wanted, db.transactions.get? r.1 = some r.2 ∧ r.2.orgId = orgId ∧ r.1 ∈ requested)
include hw

/-- An id taken is one asked for, or the other leg of one. -/
theorem mem_taken (hl : WellLinked db.transactions) {d : Nat} :
    d ∈ wanted.flatMap (withPartner (lockForDelete db orgId requested)) ↔
      ∃ i t, (i, t) ∈ wanted ∧ (d = i ∨ ∃ c, Mutual db.transactions i t d c) := by
  rw [List.mem_flatMap]
  constructor
  · rintro ⟨⟨i, t⟩, hmem, hd⟩
    obtain ⟨ht, horg, hi⟩ := hw _ hmem
    exact ⟨i, t, hmem, (mem_withPartner hl ht horg hi).mp hd⟩
  · rintro ⟨i, t, hmem, hd⟩
    obtain ⟨ht, horg, hi⟩ := hw _ hmem
    exact ⟨(i, t), hmem, (mem_withPartner hl ht horg hi).mpr hd⟩

theorem removal_of_wanted (hl : WellLinked db.transactions) :
    Removal db orgId (lockForDelete db orgId requested)
      (wanted.flatMap (withPartner (lockForDelete db orgId requested))) where
  snapshot := by
    unfold lockForDelete
    exact ⟨_, rfl⟩
  doomed := by
    intro d hd
    obtain ⟨i, t, hmem, rfl | ⟨c, hm⟩⟩ := (mem_taken hw hl).mp hd
    · obtain ⟨ht, horg, hi⟩ := hw _ hmem
      exact ⟨t, mem_lockForDelete ht horg (.inl hi)⟩
    · obtain ⟨ht, horg, hi⟩ := hw _ hmem
      obtain ⟨c', -, hget, -, hcorg⟩ := linkedRow_of_link hl ht horg hm.there
      exact ⟨c', mem_lockForDelete hget hcorg (.inr ⟨i, t, ht, horg, hi, .inl hm.there⟩)⟩
  referrers := by
    intro j c d hc hcd hd
    obtain ⟨-, a, ha, haorg⟩ := hl j c d hc hcd
    obtain ⟨i, t, hmem, hdi⟩ := (mem_taken hw hl).mp hd
    obtain ⟨ht, horg, hi⟩ := hw _ hmem
    rcases hdi with rfl | ⟨e, hm⟩
    · obtain rfl : t = a := by
        rw [ht] at ha
        exact Option.some.inj ha
      exact mem_lockForDelete hc (haorg.symm.trans horg) (.inr ⟨d, t, ht, horg, hi, .inr (.inl hcd)⟩)
    · obtain ⟨-, e', he', heorg⟩ := hl i t d ht hm.there
      rw [ha] at he'
      obtain rfl := Option.some.inj he'
      exact mem_lockForDelete hc (haorg.symm.trans (heorg.trans horg))
        (.inr ⟨i, t, ht, horg, hi, .inr (.inr ⟨d, hm.there, hcd⟩)⟩)
  pairs := by
    intro d a j c hm hd
    obtain ⟨i, t, hmem, hdi⟩ := (mem_taken hw hl).mp hd
    obtain ⟨ht, horg, hi⟩ := hw _ hmem
    refine (mem_taken hw hl).mpr ⟨i, t, hmem, ?_⟩
    rcases hdi with rfl | ⟨e, he⟩
    · obtain rfl : t = a := by
        rw [hm.left] at ht
        exact (Option.some.inj ht).symm
      exact .inr ⟨c, hm⟩
    · obtain rfl : a = e := by
        have := hm.left
        rw [he.right] at this
        exact (Option.some.inj this).symm
      have hback := hm.there
      rw [he.back] at hback
      exact .inl (Option.some.inj hback).symm

theorem targets_of_wanted (hl : WellLinked db.transactions) :
    ∀ d a l, d ∈ wanted.flatMap (withPartner (lockForDelete db orgId requested)) →
      db.transactions.get? d = some a → a.linkedTransactionId = some l →
      ∃ c, (l, c) ∈ lockForDelete db orgId requested := by
  intro d a l hd ha hal
  obtain ⟨i, t, hmem, hdi⟩ := (mem_taken hw hl).mp hd
  obtain ⟨ht, horg, hi⟩ := hw _ hmem
  rcases hdi with rfl | ⟨e, he⟩
  · obtain rfl : t = a := by
      rw [ha] at ht
      exact (Option.some.inj ht).symm
    obtain ⟨c, -, hget, -, hcorg⟩ := linkedRow_of_link hl ht horg hal
    exact ⟨c, mem_lockForDelete hget hcorg (.inr ⟨d, t, ht, horg, hi, .inl hal⟩)⟩
  · rw [he.right] at ha
    obtain rfl := Option.some.inj ha
    rw [he.back] at hal
    obtain rfl := Option.some.inj hal
    exact ⟨t, mem_lockForDelete ht horg (.inl hi)⟩

end LockForDelete

theorem deleteTransaction_deleted {id : Nat} {demoted : List Nat} (ho : Orderly rules db.books)
    (h : deleteTransaction db orgId id = .ok (db', demoted)) :
    ∃ locked ids, Removal db orgId locked ids ∧ Deleted rules db ids db' := by
  obtain ⟨tx, htx, h⟩ := bind_eq_ok.mp h
  obtain ⟨-, -, h⟩ := bind_eq_ok.mp h
  obtain ⟨db₁, hdb₁, h⟩ := bind_eq_ok.mp h
  obtain ⟨rfl, -⟩ := Prod.mk.inj (Except.ok.inj h)
  rw [found_eq_ok, findTransaction_eq_some] at htx
  have hw : ∀ r ∈ [((id, tx) : Row)], db.transactions.get? r.1 = some r.2 ∧ r.2.orgId = orgId ∧ r.1 ∈ [id] := by
    intro r hmem
    obtain rfl := List.mem_singleton.mp hmem
    exact ⟨htx.1, htx.2, List.mem_singleton_self _⟩
  have hr := removal_of_wanted hw ho.linked
  have ht := targets_of_wanted hw ho.linked
  rw [List.flatMap_singleton] at hr ht
  exact ⟨_, _, hr, hr.deleteLocked ht hdb₁⟩

theorem bulkDeleteTransactions_deleted {requested : List Nat} {result : BulkDeleteResult}
    (ho : Orderly rules db.books)
    (h : bulkDeleteTransactions db orgId requested = .ok (db', result)) :
    ∃ locked ids, Removal db orgId locked ids ∧ Deleted rules db ids db' := by
  obtain ⟨db₁, hdb₁, h⟩ := bind_eq_ok.mp h
  obtain ⟨rfl, -⟩ := Prod.mk.inj (Except.ok.inj h)
  have hw : ∀ r ∈ (requested.eraseDups.filterMap (lockedRow (lockForDelete db orgId requested.eraseDups))).filter
      (fun r => !r.2.isManualAdjustment),
      db.transactions.get? r.1 = some r.2 ∧ r.2.orgId = orgId ∧ r.1 ∈ requested.eraseDups := by
    rintro ⟨i, t⟩ hmem
    obtain ⟨j, hj, hrow⟩ := List.mem_filterMap.mp (List.mem_of_mem_filter hmem)
    obtain ⟨hlocked, rfl⟩ := mem_of_lockedRow hrow
    rw [lockForDelete, Table.mem_select, Bool.and_eq_true, beq_iff_eq] at hlocked
    exact ⟨hlocked.1, hlocked.2.1, hj⟩
  have hr := removal_of_wanted hw ho.linked
  exact ⟨_, _, hr, hr.deleteLocked (targets_of_wanted hw ho.linked) hdb₁⟩

/-! ## By series -/

theorem planPendingRemoval_removal (hl : WellLinked db.transactions) (today : Int) (recurringId : Nat) :
    Removal db orgId (planPendingRemoval db today orgId recurringId).rows
        (planPendingRemoval db today orgId recurringId).doomed ∧
      ∀ i ∈ (planPendingRemoval db today orgId recurringId).doomed, ∀ t, db.transactions.get? i = some t →
        t.status = .pending := by
  unfold planPendingRemoval
  extract_lets candidates locked splits
  dsimp only
  have hcandidate : ∀ i, i ∈ candidates → ∃ t, db.transactions.get? i = some t ∧ t.orgId = orgId ∧
      t.status = .pending := by
    intro i hi
    obtain ⟨⟨j, t⟩, ht, rfl⟩ := List.mem_map.mp hi
    rw [Table.mem_select] at ht
    simp only [Bool.and_eq_true, beq_iff_eq] at ht
    exact ⟨t, ht.1, ht.2.1.1.2, ht.2.1.2⟩
  have hlocked : ∀ i t, db.transactions.get? i = some t → t.orgId = orgId →
      (i ∈ candidates ∨ ∃ l, t.linkedTransactionId = some l ∧ l ∈ candidates) → (i, t) ∈ locked := by
    intro i t ht horg h
    rw [Table.mem_select, Bool.and_eq_true, Bool.or_eq_true, beq_iff_eq, List.contains_iff_mem,
      Option.any_eq_true]
    refine ⟨ht, horg, h.imp_right ?_⟩
    rintro ⟨l, hl, hmem⟩
    exact ⟨l, hl, List.contains_iff_mem.mpr hmem⟩
  have hdoomed : ∀ i, i ∈ (locked.filter (fun r => candidates.contains r.1 && !splits r)).map Prod.fst ↔
      ∃ t, (i, t) ∈ locked ∧ i ∈ candidates ∧ splits (i, t) = false := by
    intro i
    rw [List.mem_map]
    constructor
    · rintro ⟨⟨j, t⟩, hmem, rfl⟩
      rw [List.mem_filter, Bool.and_eq_true, List.contains_iff_mem] at hmem
      exact ⟨t, hmem.1, hmem.2.1, by simpa using hmem.2.2⟩
    · rintro ⟨t, hmem, hi, hsplit⟩
      refine ⟨(i, t), List.mem_filter.mpr ⟨hmem, ?_⟩, rfl⟩
      rw [Bool.and_eq_true, List.contains_iff_mem]
      exact ⟨hi, by rw [hsplit]; rfl⟩
  -- of a pair with a leg among the candidates, both legs are locked
  have hsplits : ∀ i a j c, Mutual db.transactions i a j c → j ∈ candidates ∨ i ∈ candidates →
      a.orgId = orgId → splits (i, a) = !candidates.contains j := by
    intro i a j c hm hmem horg
    obtain ⟨hne, c', hc', hcorg⟩ := hl i a j hm.left hm.there
    obtain rfl : c = c' := by rw [hm.right] at hc'; exact Option.some.inj hc'
    have hin : (j, c) ∈ locked := by
      refine hlocked j c hm.right (hcorg.trans horg) ?_
      exact hmem.imp_right fun hi => ⟨i, hm.back, hi⟩
    have hpartner : lockedPartner locked a = some (j, c) := by
      rw [lockedPartner, hm.there, Option.bind_some]
      exact lockedRow_select hin
    have hpair : isReciprocalPair (i, a) (some (j, c)) = true := by
      simp [isReciprocalPair, hm.there, hm.back, hne, hcorg]
    simp only [splits, hpartner, hpair, Bool.true_and]
  refine ⟨⟨⟨_, rfl⟩, ?_, ?_, ?_⟩, ?_⟩
  · intro i hi
    obtain ⟨t, ht, -⟩ := (hdoomed i).mp hi
    exact ⟨t, ht⟩
  · intro i t l ht hlink hmem
    obtain ⟨a, -, hcand, -⟩ := (hdoomed l).mp hmem
    obtain ⟨c, hc, horg, -⟩ := hcandidate l hcand
    obtain ⟨-, c', hc', hcorg⟩ := hl i t l ht hlink
    rw [hc] at hc'
    obtain rfl := Option.some.inj hc'
    exact hlocked i t ht (hcorg.symm.trans horg) (.inr ⟨l, hlink, hcand⟩)
  · intro i a j c hm hi
    obtain ⟨t, ht, hcand, hsplit⟩ := (hdoomed i).mp hi
    obtain ⟨hget, htest⟩ := Table.mem_select.mp ht
    rw [hm.left] at hget
    obtain rfl := Option.some.inj hget
    have horg : a.orgId = orgId := beq_iff_eq.mp (Bool.and_eq_true_iff.mp htest).1
    rw [hsplits i a j c hm (.inr hcand) horg] at hsplit
    have hj : j ∈ candidates := by simpa using hsplit
    obtain ⟨-, c', hc', hcorg⟩ := hl i a j hm.left hm.there
    obtain rfl : c = c' := by rw [hm.right] at hc'; exact Option.some.inj hc'
    refine (hdoomed j).mpr ⟨c, hlocked j c hm.right (hcorg.trans horg) (.inl hj), hj, ?_⟩
    rw [hsplits j c i a hm.symm (.inl hcand) (hcorg.trans horg)]
    simpa using hcand
  · intro i hi t ht
    obtain ⟨-, -, hcand, -⟩ := (hdoomed i).mp hi
    obtain ⟨c, hc, -, hpending⟩ := hcandidate i hcand
    rw [ht] at hc
    rw [Option.some.inj hc, hpending]

theorem remaining_nil (rows : Table Transaction) : remaining rows [] = rows := by
  refine Table.ext ?_ rfl
  have hd : ∀ i t, demote [] i t = t := by
    intro i t
    have : demotes [] i t = false := by
      unfold demotes
      rcases t.linkedTransactionId <;> simp
    rw [demote, this]
    rfl
  have hu : ∀ t, withoutLinkTo [] t = t := by
    intro t
    unfold withoutLinkTo
    rcases t.linkedTransactionId <;> simp
  simp [remaining, Table.mapRows, Table.remove, hd, hu]

/-- No balance moves: every row taken is pending. -/
theorem removePendingTransactions_deleted (hl : WellLinked db.transactions) (today : Int) (recurringId : Nat) :
    ∃ locked ids importBatches, Removal db orgId locked ids ∧
      (removePendingTransactions db today orgId recurringId).1 =
        { db with transactions := remaining db.transactions ids, importBatches } ∧
      Deleted rules db ids (removePendingTransactions db today orgId recurringId).1 := by
  obtain ⟨hr, hpending⟩ : Removal db orgId (planPendingRemoval db today orgId recurringId).rows _ ∧ _ :=
    planPendingRemoval_removal hl today recurringId
  obtain ⟨importBatches, hdb', hkeeps⟩ := hr.settled
  refine ⟨(planPendingRemoval db today orgId recurringId).rows,
    (planPendingRemoval db today orgId recurringId).doomed, ?_⟩
  unfold removePendingTransactions
  dsimp only
  split
  · have hnone : (planPendingRemoval db today orgId recurringId).doomed = [] := ‹_›
    refine ⟨db.importBatches, hr, ?_, ?_⟩
    · rw [hnone, remaining_nil]
    · refine ⟨?_, .refl db, .refl db⟩
      rw [hnone, remaining_nil]
  · refine ⟨importBatches, hr, hdb', ?_⟩
    dsimp only
    rw [hdb']
    obtain ⟨τ, htrail⟩ : ∃ τ, Trail (Move rules) db.books (_, τ) _ := hr.trail
    have hzero : db.transactions.total (fun i t =>
        if (planPendingRemoval db today orgId recurringId).doomed.contains i then
          booked db.transactions (i, t) else 0) = 0 := by
      refine (Table.total_congr fun i t ht => ?_).trans (Table.total_zero db.transactions)
      split
      · exact booked_of_pending (hpending i (List.contains_iff_mem.mp ‹_›) t ht)
      · rfl
    rw [hzero, neg_zero] at htrail
    exact ⟨rfl, ⟨_, htrail, (credit_zero _).symm⟩, fun hc => (hkeeps hc).1, fun hc => (hkeeps hc).2⟩

theorem aside_unlinkSeries (a : Transaction) : Aside a { a with recurringId := none } :=
  ⟨rfl, rfl, rfl, rfl, rfl, .inl ⟨rfl, rfl, rfl⟩⟩

end BetterDecision
