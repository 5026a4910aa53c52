import BetterDecision.Proof.Edits
import BetterDecision.Proof.Removals
import BetterDecision.Model.Reconciliation

/-!
# Reviewing an import

A transition changes one row's state, and with it the row's edits or the link a match
gives it. Whatever the transition, the balance moves by what the row adds after it
less what it added before, and the batch's counters by where the state was and is.
-/

namespace BetterDecision

variable {rules : Rules} {db db' : Db} {orgId : Nat}

/-! ## One transition -/

/-- The balance moves across the edge the transition crossed. -/
theorem applyBalanceForTransition_ok {tx : Transaction} {source target : Bool} (horg : tx.orgId = orgId)
    (h : applyBalanceForTransition db orgId tx source target = .ok db') :
    db' = db.credited (postingIf (tx.status = .settled && target) tx -
      postingIf (tx.status = .settled && source) tx) := by
  unfold applyBalanceForTransition at h
  unfold postingIf
  split at h
  · have hpending : decide (tx.status = .settled) = false := by simpa using ‹tx.status ≠ .settled›
    rw [hpending, Bool.false_and, Bool.false_and, sub_self, Db.credited_zero]
    exact (Except.ok.inj h).symm
  · have hsettled : decide (tx.status = .settled) = true := by simpa using ‹¬ tx.status ≠ .settled›
    rw [hsettled, Bool.true_and, Bool.true_and]
    split at h
    · rw [‹source = target›, sub_self, Db.credited_zero]
      exact (Except.ok.inj h).symm
    · split at h
      · have htarget : target = false := by
          rcases target with _ | _
          · rfl
          · exact absurd ‹source = true› ‹¬ source = true›
        rw [htarget, ‹source = true›, revertRow_ok horg h]
        simp
      · have htarget : target = true := by
          rcases target with _ | _
          · exact absurd ((Bool.not_eq_true _).mp ‹¬ source = true›) ‹¬ source = false›
          · rfl
        rw [htarget, (Bool.not_eq_true _).mp ‹¬ source = true›, applyRow_ok horg h]
        simp

theorem reconciledRow_keeps (tx : Transaction) (edits : ReconciliationEdits) :
    let new := reconciledRow tx edits
    new.linkedTransactionId = tx.linkedTransactionId ∧ new.orgId = tx.orgId ∧
      new.importBatchId = tx.importBatchId ∧ new.reconciliationState = tx.reconciliationState ∧
      new.status = tx.status ∧ new.accountId = tx.accountId ∧ new.type = tx.type :=
  ⟨rfl, rfl, rfl, rfl, rfl, rfl, rfl⟩

/-- The edits of a row in no pair: its balance moves if its amount does. -/
theorem applyEdits_ok {today : Int} {id : Nat} {tx new : Transaction} {edits : ReconciliationEdits}
    {partner : Option Row} {counted : Bool} (horg : tx.orgId = orgId)
    (h : applyEdits db today orgId (id, tx) edits partner counted = .ok (db', new)) :
    ¬ isReciprocalPair (id, tx) partner = true ∧ new = reconciledRow tx edits ∧
      db' = editTransaction (db.credited (postingIf (tx.status = .settled && counted) new -
        postingIf (tx.status = .settled && counted) tx)) id (fun _ => new) := by
  obtain ⟨_, hpair, h⟩ := bind_eq_ok.mp h
  rw [refuse_eq_ok] at hpair
  obtain ⟨-, -, h⟩ := bind_eq_ok.mp h
  obtain ⟨db₁, hdb₁, h⟩ := bind_eq_ok.mp h
  obtain ⟨db₂, hdb₂, h⟩ := bind_eq_ok.mp h
  obtain ⟨-, -, h⟩ := bind_eq_ok.mp h
  obtain ⟨-, -, h⟩ := bind_eq_ok.mp h
  obtain ⟨rfl, rfl⟩ := Prod.mk.inj (Except.ok.inj h)
  refine ⟨hpair, rfl, ?_⟩
  obtain rfl := doIf_revertRow_ok horg hdb₁
  -- the new amount goes in under the row's own account and type
  have hnew : doIf (tx.status = .settled && counted && (reconciledRow tx edits).amount != tx.amount)
      (fun db => applyRow db orgId (reconciledRow tx edits)) _ = .ok db₂ := hdb₂
  have hneworg : (reconciledRow tx edits).orgId = orgId := horg
  obtain rfl := doIf_applyRow_ok hneworg hnew
  congr 1
  rw [Db.credited, Db.credited, credit_credit, Db.credited]
  congr 2
  by_cases hamount : (reconciledRow tx edits).amount = tx.amount
  · have hsame : posting (reconciledRow tx edits) = posting tx := by
      unfold posting
      rw [hamount]
      rfl
    unfold postingIf
    rw [hsame, neg_add_cancel, sub_self]
  · have hmoves : ((reconciledRow tx edits).amount != tx.amount) = true := bne_iff_ne.mpr hamount
    rw [hmoves, Bool.and_true, neg_add_eq_sub]

/-- A match: the row has a live target that does not point back, and was in no pair. -/
theorem applyMatch_ok {id matchId : Nat} {tx : Transaction} {matched : Row}
    (h : applyMatch db orgId (id, tx) matchId = .ok (db', matched)) :
    db' = setLink id (some matchId) db ∧ matched.1 = matchId ∧ matchId ≠ id ∧
      db.transactions.get? matchId = some matched.2 ∧ matched.2.orgId = orgId ∧
      matched.2.linkedTransactionId ≠ some id ∧
      ¬ isReciprocalPair (id, tx) (linkedRow db orgId tx) = true := by
  obtain ⟨_, hne, h⟩ := bind_eq_ok.mp h
  obtain ⟨target, htarget, h⟩ := bind_eq_ok.mp h
  obtain ⟨-, -, h⟩ := bind_eq_ok.mp h
  obtain ⟨_, haway, h⟩ := bind_eq_ok.mp h
  obtain ⟨_, hpair, h⟩ := bind_eq_ok.mp h
  obtain ⟨rfl, rfl⟩ := Prod.mk.inj (Except.ok.inj h)
  rw [found_eq_ok, findTransaction_eq_some] at htarget
  exact ⟨rfl, rfl, refuse_eq_ok.mp hne, htarget.1, htarget.2, refuse_eq_ok.mp haway, refuse_eq_ok.mp hpair⟩

/-- A row on its way through a transition: what the payload has made of it and of the
totals, and who is inside the balance from here on. -/
structure Underway (rules : Rules) (db : Db) (id : Nat) (tx : Transaction) (db' : Db) (new : Transaction)
    (partner : Option Row) : Prop where
  get : db'.transactions.get? id = some new
  org : new.orgId = tx.orgId
  batch : new.importBatchId = tx.importBatchId
  state : new.reconciliationState = tx.reconciliationState
  wrote : Wrote rules db (weigh db'.transactions (id, new) - weigh db.transactions (id, tx))
    (postingIf (new.status = .settled && balanceContributionFilter db.transactions (id, tx)) new -
      postingIf (tx.status = .settled && balanceContributionFilter db.transactions (id, tx)) tx) db'
  contributes : ∀ state, contributesToCachedBalance (id, { new with reconciliationState := state }) partner =
    balanceContributionFilter db'.transactions (id, { new with reconciliationState := state })

section Payload

variable {id : Nat} {tx : Transaction} (ho : Orderly rules db.books) (htx : db.transactions.get? id = some tx)
  (horg : tx.orgId = orgId)
include ho htx horg

theorem underway_same : Underway rules db id tx db tx (linkedRow db orgId tx) := by
  refine ⟨htx, rfl, rfl, rfl, ?_, fun state => ?_⟩
  · rw [sub_self, sub_self]
    exact .refl db
  · refine contributes_of_partner fun l hlink => ?_
    obtain ⟨c, hc, hget, -, -⟩ := linkedRow_of_link ho.linked htx horg hlink
    exact ⟨c, hc, hget⟩

theorem underway_edited {today : Int} {new : Transaction} {edits : ReconciliationEdits}
    (h : applyEdits db today orgId (id, tx) edits (linkedRow db orgId tx)
      (balanceContributionFilter db.transactions (id, tx)) = .ok (db', new)) :
    Underway rules db id tx db' new (linkedRow db orgId tx) := by
  obtain ⟨hpair, rfl, rfl⟩ := applyEdits_ok horg h
  have halone := not_mutual_of_not_reciprocal ho.linked htx horg hpair
  generalize hnew : reconciledRow tx edits = new
  have hkeeps : new.linkedTransactionId = tx.linkedTransactionId ∧ new.orgId = tx.orgId ∧
      new.importBatchId = tx.importBatchId ∧ new.reconciliationState = tx.reconciliationState ∧
      new.status = tx.status := by
    subst hnew
    exact ⟨rfl, rfl, rfl, rfl, rfl⟩
  obtain ⟨hlink, hneworg, hbatch, hstate, hstatus⟩ := hkeeps
  generalize hμ : postingIf (tx.status = .settled && balanceContributionFilter db.transactions (id, tx)) new -
    postingIf (tx.status = .settled && balanceContributionFilter db.transactions (id, tx)) tx = μ
  have hlinks : ∀ i, linkOf (editTransaction (db.credited μ) id (fun _ => new)).transactions i =
      linkOf db.transactions i := by
    refine linkOf_mapRows fun i a ha => ?_
    split
    · subst ‹i = id›
      obtain rfl : tx = a := Option.some.inj (htx.symm.trans ha)
      exact hlink
    · rfl
  have hwrote : Wrote rules db _ _ _ := (wrote_credited db μ).trans
    (wrote_edit (f := fun _ => new) htx rfl hlink hneworg fun j c hm => absurd hm (halone j c))
  rw [zero_add, add_zero] at hwrote
  refine ⟨Table.get?_modify_self htx, hneworg, hbatch, hstate, ?_, fun state => ?_⟩
  · have hweigh : weigh (editTransaction (db.credited μ) id (fun _ => new)).transactions (id, new) =
        weigh db.transactions (id, new) := weigh_congr fun l _ => by rw [hlinks]
    rw [hstatus, hμ, hweigh]
    exact hwrote
  · refine Eq.trans (b := balanceContributionFilter db.transactions _) (contributes_of_partner fun l hl => ?_) ?_
    · obtain ⟨c, hc, hget, -, -⟩ := linkedRow_of_link ho.linked htx horg (hlink ▸ hl)
      exact ⟨c, hc, hget⟩
    · exact balanceContributionFilter_congr rfl rfl fun l _ => by rw [hlinks]

theorem underway_matched {matchId : Nat} {matched : Row}
    (h : applyMatch db orgId (id, tx) matchId = .ok (db', matched)) :
    Underway rules db id tx db' (withLink (some matchId) tx) (some matched) := by
  obtain ⟨rfl, hid, hne, hget, hmorg, haway, hpair⟩ := applyMatch_ok h
  have hmark : Wrote rules db (-(booked db.transactions (id, tx)), 0) 0 (setLink id (some matchId) db) :=
    wrote_move (.mark (b := db.books) htx hget hne (hmorg.trans horg.symm) haway
      (not_mutual_of_not_reciprocal ho.linked htx horg hpair)) rfl rfl
  have hlinks : linkOf (setLink id (some matchId) db).transactions matchId ≠ some id := by
    have := linkOf_modify_withLink (some matchId) htx matchId
    rw [if_neg hne, linkOf_of_get hget] at this
    exact fun h => haway (this.symm.trans h)
  refine ⟨Table.get?_modify_self htx, rfl, rfl, rfl, ?_, fun state => ?_⟩
  · have hweigh : weigh (setLink id (some matchId) db).transactions (id, withLink (some matchId) tx) -
        weigh db.transactions (id, tx) = (-(booked db.transactions (id, tx)), 0) := by
      refine Prod.ext ?_ (sub_self _)
      show booked _ (id, withLink (some matchId) tx) - booked _ (id, tx) = _
      rw [booked_of_one_way rfl hlinks, zero_sub]
    have hmoney : postingIf ((withLink (some matchId) tx).status = .settled &&
        balanceContributionFilter db.transactions (id, tx)) (withLink (some matchId) tx) -
        postingIf (tx.status = .settled && balanceContributionFilter db.transactions (id, tx)) tx = 0 :=
      sub_self _
    rw [hweigh, hmoney]
    exact hmark
  · obtain ⟨k, target⟩ := matched
    subst hid
    simp only [contributesToCachedBalance, balanceContributionFilter, withLink]
    have hback : (linkOf (setLink id (some k) db).transactions k == some id) = false :=
      beq_eq_false_iff_ne.mpr hlinks
    have haway' : (target.linkedTransactionId == some id) = false := beq_eq_false_iff_ne.mpr haway
    rw [hback, haway']
    rcases state.isReverted <;> simp

theorem applyPayload_ok {today : Int} {new : Transaction} {t : ReconciliationTransition}
    {partner : Option Row}
    (h : applyPayload db today orgId (id, tx) t (linkedRow db orgId tx)
      (balanceContributionFilter db.transactions (id, tx)) = .ok (db', new, partner)) :
    Underway rules db id tx db' new partner := by
  unfold applyPayload at h
  split at h
  · obtain ⟨⟨db₁, row⟩, hedit, h⟩ := bind_eq_ok.mp h
    obtain ⟨rfl, hrest⟩ := Prod.mk.inj (Except.ok.inj h)
    obtain ⟨rfl, rfl⟩ := Prod.mk.inj hrest
    exact underway_edited ho htx horg hedit
  · obtain ⟨⟨db₁, matched⟩, hmatch, h⟩ := bind_eq_ok.mp h
    obtain ⟨rfl, hrest⟩ := Prod.mk.inj (Except.ok.inj h)
    obtain ⟨rfl, rfl⟩ := Prod.mk.inj hrest
    exact underway_matched ho htx horg hmatch
  · obtain ⟨rfl, hrest⟩ := Prod.mk.inj (Except.ok.inj h)
    obtain ⟨rfl, rfl⟩ := Prod.mk.inj hrest
    exact underway_same ho htx horg

end Payload

/-- **The state changed, and the balance with it.** -/
theorem Underway.transition {db₁ db₂ : Db} {id : Nat} {tx new : Transaction} {partner : Option Row}
    {target : ReconciliationState} (hu : Underway rules db id tx db₁ new partner) (horg : tx.orgId = orgId)
    (h : applyBalanceForTransition (editTransaction db₁ id (fun t => { t with reconciliationState := target }))
      orgId { new with reconciliationState := target } (balanceContributionFilter db.transactions (id, tx))
      (contributesToCachedBalance (id, { new with reconciliationState := target }) partner) = .ok db₂) :
    ∃ μ, Wrote rules db (μ, enrolled { tx with reconciliationState := target } - enrolled tx) μ db₂ := by
  have hneworg : ({ new with reconciliationState := target } : Transaction).orgId = orgId := hu.org.trans horg
  obtain rfl := applyBalanceForTransition_ok hneworg h
  have hstate : Wrote rules db₁ _ _ _ := wrote_edit (f := fun t => { t with reconciliationState := target })
    hu.get rfl rfl rfl (fun j c _ => ⟨rfl, rfl, .inl rfl⟩)
  have hwrote := (hu.wrote.trans hstate).credited (postingIf (new.status = .settled &&
      contributesToCachedBalance (id, { new with reconciliationState := target }) partner)
      { new with reconciliationState := target } -
    postingIf (new.status = .settled && balanceContributionFilter db.transactions (id, tx))
      { new with reconciliationState := target })
  refine hwrote.balanced ?_
  rw [add_zero, hu.contributes]
  refine Prod.ext ?_ ?_
  · show (booked db₁.transactions (id, new) - booked db.transactions (id, tx)) +
      (booked db₁.transactions (id, { new with reconciliationState := target }) -
        booked db₁.transactions (id, new)) = _
    have hsame : ∀ c, postingIf c { new with reconciliationState := target } = postingIf c new := fun _ => rfl
    rw [booked_eq_postingIf db.transactions, booked_eq_postingIf db₁.transactions id
      { new with reconciliationState := target }, hsame, hsame, sub_add_sub_cancel', sub_add_sub_cancel']
  · show (enrolled new - enrolled tx) + (enrolled { new with reconciliationState := target } - enrolled new) = _
    have henrolled : enrolled { new with reconciliationState := target } =
        enrolled { tx with reconciliationState := target } :=
      enrolled_congr hu.org hu.batch rfl
    rw [henrolled, sub_add_sub_cancel']

/-- What one transition comes to: nothing, or a row of the batch in another state. -/
theorem reconcileOne_ok {today : Int} {batchId : Nat} {t : ReconciliationTransition}
    (ho : Orderly rules db.books) (h : reconcileOne db today orgId batchId t = .ok db') :
    db' = db ∨ ∃ tx db₁ μ, db.transactions.get? t.transactionId = some tx ∧ tx.orgId = orgId ∧
      tx.importBatchId = some batchId ∧ tx.reconciliationState.allowed t.toState = true ∧
      Wrote rules db (μ, enrolled { tx with reconciliationState := t.toState } - enrolled tx) μ db₁ ∧
      db' = editBatch db₁ batchId (countTransition tx.reconciliationState t.toState) := by
  obtain ⟨-, -, h⟩ := bind_eq_ok.mp h
  obtain ⟨tx, htx, h⟩ := bind_eq_ok.mp h
  obtain ⟨_, hbatch, h⟩ := bind_eq_ok.mp h
  rw [found_eq_ok, findTransaction_eq_some] at htx
  rw [refuse_eq_ok, not_not] at hbatch
  obtain ⟨hget, horg⟩ := htx
  dsimp only at h
  split at h
  · exact .inl (Except.ok.inj h).symm
  · obtain ⟨_, hallowed, h⟩ := bind_eq_ok.mp h
    obtain ⟨-, -, h⟩ := bind_eq_ok.mp h
    obtain ⟨⟨db₁, new, partner⟩, hpayload, h⟩ := bind_eq_ok.mp h
    obtain ⟨db₂, hbalance, h⟩ := bind_eq_ok.mp h
    rw [contributes_eq ho.linked hget horg] at hpayload hbalance
    have hu := applyPayload_ok ho hget horg hpayload
    obtain ⟨μ, hwrote⟩ := hu.transition horg hbalance
    refine .inr ⟨tx, db₂, μ, hget, horg, hbatch, ?_, hwrote, (Except.ok.inj h).symm⟩
    simpa [validateTransition, refuse_eq_ok] using hallowed

theorem books_editBatch (db : Db) (k : Nat) (f : ImportBatch → ImportBatch) : (editBatch db k f).books = db.books := rfl

theorem reconcileOne_moved {today : Int} {batchId : Nat} {t : ReconciliationTransition}
    (ho : Orderly rules db.books) (h : reconcileOne db today orgId batchId t = .ok db') :
    Moved rules db db' := by
  obtain rfl | ⟨tx, db₁, μ, -, -, -, -, hwrote, rfl⟩ := reconcileOne_ok ho h
  · exact .refl _
  · exact ⟨_, hwrote.trail, hwrote.money⟩

/-! ## The counters -/

theorem isEnrolled_withState (tx : Transaction) (state : ReconciliationState) (key : Nat × Nat)
    (test : ReconciliationState → Bool) :
    isEnrolled key test { tx with reconciliationState := state } =
      (tx.orgId == key.1 && tx.importBatchId == some key.2 && test state) := rfl

/-- How a transition moves the numbers of the rows. -/
def moves (orgId batchId : Nat) (source target : ReconciliationState) : Numbers := fun key test =>
  if key = (orgId, batchId) then (if test target then 1 else 0) - (if test source then 1 else 0) else 0

theorem enrolled_sub {tx : Transaction} {batchId : Nat} (horg : tx.orgId = orgId)
    (hbatch : tx.importBatchId = some batchId) (target : ReconciliationState) :
    enrolled { tx with reconciliationState := target } - enrolled tx =
      moves orgId batchId tx.reconciliationState target := by
  funext key test
  show enrolled { tx with reconciliationState := target } key test - enrolled tx key test = _
  rw [enrolled_eq, enrolled_eq, isEnrolled_withState, isEnrolled, horg, hbatch, moves]
  by_cases hkey : key = (orgId, batchId)
  · subst hkey
    simp
  · rw [if_neg hkey]
    have hne : (orgId == key.1 && some batchId == some key.2) = false := by
      by_contra h
      rw [Bool.not_eq_false, Bool.and_eq_true, beq_iff_eq, beq_iff_eq] at h
      exact hkey (Prod.ext h.1.symm (Option.some.inj h.2).symm)
    rw [hne, Bool.false_and, Bool.false_and]
    exact sub_self _

theorem movedCount_eq {wasIn isIn : Bool} {count : Int} (h : wasIn = true → 0 < count) :
    movedCount wasIn isIn count = count + ((if isIn then 1 else 0) - (if wasIn then 1 else 0)) := by
  unfold movedCount decrement
  rcases wasIn with _ | _ <;> rcases isIn with _ | _ <;> simp at h ⊢
  omega

/-- A count of rows, one of which is this one. -/
theorem weight_pos {rows : Table Transaction} {i batchId : Nat} {tx : Transaction}
    {test : ReconciliationState → Bool} (ht : rows.get? i = some tx) (horg : tx.orgId = orgId)
    (hbatch : tx.importBatchId = some batchId) (htest : test tx.reconciliationState = true) :
    0 < (weight rows).2 (orgId, batchId) test := by
  have hne : (weight rows).2 (orgId, batchId) test ≠ 0 :=
    weight_ne_zero.mpr ⟨i, tx, ht, by simp [isEnrolled, horg, hbatch, htest]⟩
  have := weight_nonneg rows (orgId, batchId) test
  omega

theorem counted_transition {rows : Table Transaction} {batches : Table ImportBatch} {i batchId : Nat}
    {tx : Transaction} {target : ReconciliationState} {w : Numbers} (ht : rows.get? i = some tx)
    (horg : tx.orgId = orgId) (hbatch : tx.importBatchId = some batchId)
    (hw : w = (weight rows).2 + moves orgId batchId tx.reconciliationState target)
    (h : Counted (weight rows).2 batches) :
    Counted w (batches.modify batchId (countTransition tx.reconciliationState target)) := by
  subst hw
  have hhome : ∀ b, batches.get? batchId = some b → b.orgId = orgId :=
    fun b hb => (h.home ht hbatch hb).symm.trans horg
  -- away from the batch nothing moves
  have haway : ∀ k b test, batches.get? k = some b → k ≠ batchId →
      ((weight rows).2 + moves orgId batchId tx.reconciliationState target) (b.orgId, k) test =
        (weight rows).2 (b.orgId, k) test := by
    intro k b test _ hk
    have : (b.orgId, k) ≠ (orgId, batchId) := fun he => hk (Prod.mk.inj he).2
    simp [moves, this]
  have hhere : ∀ b test, batches.get? batchId = some b →
      ((weight rows).2 + moves orgId batchId tx.reconciliationState target) (b.orgId, batchId) test =
        (weight rows).2 (b.orgId, batchId) test +
          ((if test target then 1 else 0) - (if test tx.reconciliationState then 1 else 0)) := by
    intro b test hb
    rw [hhome b hb]
    simp [moves]
  refine ⟨?_, ?_, ?_, ?_⟩
  · intro k b' hb'
    obtain ⟨b, hb, rfl⟩ := Table.get?_modify_eq_some.mp hb'
    split
    · subst ‹k = batchId›
      refine Eq.trans ?_ (hhere b _ hb).symm
      rw [if_pos rfl, sub_self, add_zero]
      exact h.rows k b hb
    · rw [haway k b _ hb ‹_›]
      exact h.rows k b hb
  · intro k b' hb'
    obtain ⟨b, hb, rfl⟩ := Table.get?_modify_eq_some.mp hb'
    split
    · subst ‹k = batchId›
      refine Eq.trans ?_ (hhere b _ hb).symm
      rw [← h.accepted k b hb]
      refine movedCount_eq fun hsource => ?_
      rw [h.accepted k b hb, hhome b hb]
      exact weight_pos ht horg hbatch hsource
    · rw [haway k b _ hb ‹_›]
      exact h.accepted k b hb
  · intro k b' hb'
    obtain ⟨b, hb, rfl⟩ := Table.get?_modify_eq_some.mp hb'
    split
    · subst ‹k = batchId›
      refine Eq.trans ?_ (hhere b _ hb).symm
      rw [← h.pending k b hb]
      refine movedCount_eq fun hsource => ?_
      rw [h.pending k b hb, hhome b hb]
      exact weight_pos ht horg hbatch hsource
    · rw [haway k b _ hb ‹_›]
      exact h.pending k b hb
  · intro org k hne
    have hsame : ((weight rows).2 + moves orgId batchId tx.reconciliationState target) (org, k)
        (fun _ => true) = (weight rows).2 (org, k) (fun _ => true) := by
      simp [moves]
    obtain ⟨b, hb, hborg⟩ := h.homes org k (hsame ▸ hne)
    refine ⟨_, Table.get?_modify_eq_some.mpr ⟨b, hb, rfl⟩, ?_⟩
    split <;> exact hborg

/-- Only an accepted row goes back to review. -/
theorem reopens_of_allowed {source target : ReconciliationState} (h : source.allowed target = true)
    (htarget : target.isPending = true) : source.isPending = true ∨ target = .pendingReview := by
  cases source <;> cases target <;> simp_all [ReconciliationState.allowed, ReconciliationState.isPending,
    ReconciliationState.isReviewTarget]

theorem shut_transition {rows : Table Transaction} {batches : Table ImportBatch} {i batchId : Nat}
    {tx : Transaction} {target : ReconciliationState} {w : Numbers} (ht : rows.get? i = some tx)
    (horg : tx.orgId = orgId) (hbatch : tx.importBatchId = some batchId)
    (hallowed : tx.reconciliationState.allowed target = true)
    (hguard : ∀ b, batches.get? batchId = some b → b.status = .closed → target ≠ .pendingReview)
    (hw : w = (weight rows).2 + moves orgId batchId tx.reconciliationState target)
    (h : Counted (weight rows).2 batches) (hs : Shut (weight rows).2 batches) :
    Shut w (batches.modify batchId (countTransition tx.reconciliationState target)) := by
  intro k b' hb' hclosed
  obtain ⟨b, hb, rfl⟩ := Table.get?_modify_eq_some.mp hb'
  subst hw
  split at hclosed
  · subst ‹k = batchId›
    rw [if_pos rfl]
    have hzero := hs k b hb hclosed
    have hborg : b.orgId = orgId := (h.home ht hbatch hb).symm.trans horg
    have hsource : tx.reconciliationState.isPending = false := by
      by_contra hsource
      have : 0 < (weight rows).2 (orgId, k) (·.isPending) :=
        weight_pos ht horg hbatch (show (·.isPending) tx.reconciliationState = true by simpa using hsource)
      rw [hborg] at hzero
      omega
    have htarget : target.isPending = false := by
      by_contra htarget
      rcases reopens_of_allowed hallowed (by simpa using htarget) with hs' | hreview
      · rw [hsource] at hs'
        cases hs'
      · exact hguard b hb hclosed hreview
    show (weight rows).2 (b.orgId, k) (·.isPending) + moves orgId k _ target (b.orgId, k) (·.isPending) = 0
    simp [hzero, moves, hsource, htarget]
  · rw [if_neg ‹_›]
    have hne : (b.orgId, k) ≠ (orgId, batchId) := fun he => ‹¬ k = batchId› (Prod.mk.inj he).2
    show (weight rows).2 (b.orgId, k) (·.isPending) + moves orgId batchId _ target (b.orgId, k) (·.isPending) = 0
    rw [hs k b hb hclosed]
    simp [moves, hne]

/-- No transition of a closed batch asks for a row to be reviewed again. -/
def NotReopened (db : Db) (batchId : Nat) (transitions : List ReconciliationTransition) : Prop :=
  ∀ b, db.importBatches.get? batchId = some b → b.status = .closed →
    ∀ t ∈ transitions, t.toState ≠ .pendingReview

theorem reconcileOne_counters {today : Int} {batchId : Nat} {t : ReconciliationTransition}
    (ho : Orderly rules db.books) (h : reconcileOne db today orgId batchId t = .ok db')
    (hc : Counted (weight db.transactions).2 db.importBatches) :
    Counted (weight db'.transactions).2 db'.importBatches ∧
      (NotReopened db batchId [t] → Shut (weight db.transactions).2 db.importBatches →
        Shut (weight db'.transactions).2 db'.importBatches) ∧
      ∀ b', db'.importBatches.get? batchId = some b' →
        ∃ b, db.importBatches.get? batchId = some b ∧ b.status = b'.status := by
  obtain rfl | ⟨tx, db₁, μ, hget, horg, hbatch, hallowed, hwrote, rfl⟩ := reconcileOne_ok ho h
  · exact ⟨hc, fun _ => id, fun b' hb' => ⟨b', hb', rfl⟩⟩
  · have hw : (weight db₁.transactions).2 =
        (weight db.transactions).2 + moves orgId batchId tx.reconciliationState t.toState := by
      rw [hwrote.weight ho, Prod.snd_add, enrolled_sub horg hbatch]
    have hbatches : (editBatch db₁ batchId (countTransition tx.reconciliationState t.toState)).importBatches =
        db.importBatches.modify batchId (countTransition tx.reconciliationState t.toState) := by
      rw [editBatch, hwrote.batches]
    rw [hbatches]
    refine ⟨counted_transition hget horg hbatch hw hc, fun hguard hs => ?_, fun b' hb' => ?_⟩
    · exact shut_transition hget horg hbatch hallowed
        (fun b hb hclosed => hguard b hb hclosed t (List.mem_singleton_self t)) hw hc hs
    · obtain ⟨b, hb, rfl⟩ := Table.get?_modify_eq_some.mp hb'
      rw [if_pos rfl]
      exact ⟨b, hb, rfl⟩

/-- The transitions of a request, one after the other. -/
theorem reconcileAll_keeps {today : Int} {batchId : Nat} (ts : List ReconciliationTransition) {db db' : Db}
    (ho : Orderly rules db.books)
    (h : ts.foldlM (fun db t => reconcileOne db today orgId batchId t) db = .ok db') :
    Moved rules db db' ∧ (Counted (weight db.transactions).2 db.importBatches →
      Counted (weight db'.transactions).2 db'.importBatches ∧
        (NotReopened db batchId ts → Shut (weight db.transactions).2 db.importBatches →
          Shut (weight db'.transactions).2 db'.importBatches)) := by
  induction ts generalizing db with
  | nil =>
    rw [List.foldlM_nil, pure_eq_ok] at h
    subst h
    exact ⟨.refl db, fun hc => ⟨hc, fun _ => id⟩⟩
  | cons t ts ih =>
    rw [List.foldlM_cons] at h
    obtain ⟨db₁, hdb₁, h⟩ := bind_eq_ok.mp h
    have hmoved := reconcileOne_moved ho hdb₁
    obtain ⟨hrest, hcounters⟩ := ih (hmoved.orderly ho) h
    refine ⟨hmoved.trans hrest, fun hc => ?_⟩
    obtain ⟨hc₁, hs₁, hstatus⟩ := reconcileOne_counters ho hdb₁ hc
    obtain ⟨hc', hs'⟩ := hcounters hc₁
    refine ⟨hc', fun hguard hs => hs' ?_ (hs₁ ?_ hs)⟩
    · intro b' hb' hclosed t' ht'
      obtain ⟨b, hb, hb'⟩ := hstatus b' hb'
      exact hguard b hb (hb'.trans hclosed) t' (List.mem_cons_of_mem _ ht')
    · intro b hb hclosed t' ht'
      rw [List.mem_singleton.mp ht']
      exact hguard b hb hclosed t (List.mem_cons_self ..)

/-- Closing a batch whose counters are right. -/
theorem closeBatchIfComplete_recounted (db : Db) (k : Nat) :
    Recounted db (closeBatchIfComplete db k []) ∧ Moved rules db (closeBatchIfComplete db k []) := by
  have hpending : Counted (weight db.transactions).2 db.importBatches →
      ∀ b, db.importBatches.get? k = some b →
        (pendingRowsOf db k [] : Int) = (weight db.transactions).2 (b.orgId, k) (·.isPending) := by
    intro hc b hb
    refine pendingRowsOf_eq hc hb (Table.total_congr fun i t _ => ?_)
    simp
  obtain ⟨batches, hbatches⟩ := closeBatchIfComplete_elsewhere db k []
  have hkeeps := fun hc => closeBatchIfComplete_keeps hpending hc
  rw [hbatches] at hkeeps ⊢
  exact ⟨⟨fun hc => (hkeeps hc).1, fun hc => (hkeeps hc).2⟩, 0, .refl _, (credit_zero _).symm⟩

theorem reconcileRequest_keeps {today : Int} {batchId : Nat} {transitions : List ReconciliationTransition}
    (ho : Orderly rules db.books) (h : reconcileRequest db today orgId batchId transitions = .ok db') :
    Moved rules db db' ∧ (Counted (weight db.transactions).2 db.importBatches →
      Counted (weight db'.transactions).2 db'.importBatches ∧
        (NotReopened db batchId transitions → Shut (weight db.transactions).2 db.importBatches →
          Shut (weight db'.transactions).2 db'.importBatches)) := by
  obtain ⟨batch, -, h⟩ := bind_eq_ok.mp h
  obtain ⟨db₁, hdb₁, h⟩ := bind_eq_ok.mp h
  obtain rfl := Except.ok.inj h
  obtain ⟨hmoved, hcounters⟩ := reconcileAll_keeps transitions ho hdb₁
  obtain ⟨hclose, hclosed⟩ : _ ∧ Moved rules _ _ := closeBatchIfComplete_recounted db₁ batchId
  refine ⟨hmoved.trans hclosed, fun hc => ?_⟩
  obtain ⟨hc₁, hs₁⟩ := hcounters hc
  exact ⟨hclose.counted hc₁, fun hguard hs => hclose.shut hc₁ (hs₁ hguard hs)⟩

end BetterDecision
