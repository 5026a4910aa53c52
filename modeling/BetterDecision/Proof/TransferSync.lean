import BetterDecision.Proof.Series

/-!
# A transfer template and its pending pairs

An edit of a transfer template is written onto the pending pairs of its series: each field
where the pair still holds the old value, the source on the expense leg and the destination
on the income leg. What the series' own sync writes before that leaves linked rows alone.

The expense leg goes first, and not onto the account its partner is on at that moment. Where
the old destination becomes the new source the partner is still on it, and the leg stays. The
partner then goes on to the new destination, unless that is the account the leg stayed on.
-/

namespace BetterDecision

variable {orgId recurringId : Nat}

/-! ## Linked rows -/

/-- The linked rows of the one are those of the other. -/
def LinkedSame (db db' : Db) : Prop :=
  ∀ j t, t.linkedTransactionId ≠ none → (db'.transactions.get? j = some t ↔ db.transactions.get? j = some t)

theorem LinkedSame.refl (db : Db) : LinkedSame db db := fun _ _ _ => Iff.rfl

theorem LinkedSame.trans {db db' db'' : Db} (h : LinkedSame db db') (h' : LinkedSame db' db'') : LinkedSame db db'' :=
  fun j t ht => (h' j t ht).trans (h j t ht)

theorem linkedSame_updateRows {db : Db} {test : Nat → Transaction → Bool} {f : Transaction → Transaction}
    (hlink : ∀ t, (f t).linkedTransactionId = t.linkedTransactionId)
    (htest : ∀ j t, db.transactions.get? j = some t → test j t = true → t.linkedTransactionId = none) :
    LinkedSame db (updateRows db orgId test f) := by
  intro j t ht
  unfold updateRows
  dsimp only
  rw [Table.get?_mapRows]
  constructor
  · intro h
    obtain ⟨row, hrow, hwritten⟩ := Option.map_eq_some_iff.mp h
    split at hwritten
    · rename_i hmeets
      have hnone := htest j row hrow hmeets.2
      rw [← hwritten, hlink, hnone] at ht
      exact absurd rfl ht
    · rw [hrow, hwritten]
  · intro h
    rw [h, Option.map_some, if_neg fun hmeets => ht (htest j t h hmeets.2)]

/-- What a sync writes goes to rows with no partner. -/
theorem mem_targets_unlinked {db : Db} {txType : Option TransactionType} {excludeId : Option Nat} {after : Option Int}
    {test : Row → Bool} {j : Nat} {t : Transaction} (hget : db.transactions.get? j = some t)
    (h : (((seriesSyncTargets db orgId recurringId txType excludeId after).filter test).map Prod.fst).contains j = true) :
    t.linkedTransactionId = none := by
  obtain ⟨⟨i, row⟩, hrow, rfl⟩ := List.mem_map.mp (List.contains_iff_mem.mp h)
  obtain ⟨hrow, htest⟩ := Table.mem_select.mp (List.mem_of_mem_filter hrow)
  obtain rfl := Option.some.inj (hget.symm.trans hrow)
  simp only [Bool.and_eq_true, Option.isNone_iff_eq_none] at htest
  exact htest.1.1.1.1.1.2

/-- A sync of a template: every field comes with its old value, and no dates. -/
structure GuardedSync (sync : SeriesSync) : Prop where
  description : sync.descriptionWas.isNone = false
  category : sync.categoryWas.isNone = false
  account : sync.accountWas.isNone = false
  dates : sync.dateMove = none

theorem guarded_syncOfTemplate (was r : RecurringTransaction) : GuardedSync (syncOfTemplate was r) := ⟨rfl, rfl, rfl, rfl⟩

theorem linkedSame_of_eq {db db' : Db} (h : db'.transactions = db.transactions) : LinkedSame db db' := by
  intro j t _
  rw [h]

theorem linkedSame_syncAmount (db : Db) (sync : SeriesSync) :
    LinkedSame db (syncAmount orgId recurringId sync db) := by
  unfold syncAmount
  split
  · exact .refl db
  · exact linkedSame_updateRows (fun _ => rfl) fun _ _ hget h => mem_targets_unlinked hget h

theorem linkedSame_syncGuarded (db : Db) (sync : SeriesSync) :
    LinkedSame db (syncGuarded orgId recurringId sync db) := by
  unfold syncGuarded
  extract_lets targets idsOf named categorised
  -- the targets are those before the first of the three writes
  have htargets : ∀ {written : Db}, LinkedSame db written → ∀ test j t, written.transactions.get? j = some t →
      j ∈ idsOf test → t.linkedTransactionId = none := by
    intro written hwritten test j t hget hmem
    by_contra hlinked
    exact hlinked (mem_targets_unlinked ((hwritten j t hlinked).mp hget) (List.contains_iff_mem.mpr hmem))
  have hnamed : LinkedSame db named := by
    unfold named
    split
    · exact linkedSame_updateRows (fun _ => rfl)
        fun j t hget h => htargets (.refl db) (fun t => t.description == _) j t hget (List.contains_iff_mem.mp h)
    · exact .refl db
  have hcategorised : LinkedSame db categorised := by
    unfold categorised
    split
    · exact hnamed.trans (linkedSame_updateRows (fun _ => rfl)
        fun j t hget h => htargets hnamed (fun t => t.categoryId == _ && t.type == _) j t hget (List.contains_iff_mem.mp h))
    · exact hnamed
  split
  · exact hcategorised.trans (linkedSame_updateRows (fun _ => rfl)
      fun j t hget h => htargets hcategorised (fun t => t.accountId == _) j t hget (List.contains_iff_mem.mp h))
  · exact hcategorised

/-- **A template's own sync leaves linked rows alone.** -/
theorem linkedSame_propagate (db : Db) {sync : SeriesSync} (h : GuardedSync sync) :
    LinkedSame db (propagateFieldsToSeries db orgId recurringId sync) := by
  have hdescription : ∀ s, LinkedSame s (syncDescription orgId recurringId sync s) := by
    intro s
    unfold syncDescription
    split
    · exact .refl s
    · rw [h.description]
      exact linkedSame_of_eq rfl
  have hcategory : ∀ s, LinkedSame s (syncCategory orgId recurringId sync s) := by
    intro s
    unfold syncCategory
    split
    · exact .refl s
    · rw [h.category]
      exact linkedSame_of_eq rfl
  have haccount : ∀ s, LinkedSame s (syncAccount orgId recurringId sync s) := by
    intro s
    unfold syncAccount
    split
    · exact .refl s
    · rw [h.account]
      exact linkedSame_of_eq rfl
  have hdates : ∀ s, LinkedSame s (syncDates orgId sync s) := by
    intro s
    unfold syncDates
    rw [h.dates]
    exact .refl s
  have htemplate : ∀ s, LinkedSame s (syncTemplateValues orgId recurringId sync s) := fun s => linkedSame_of_eq rfl
  simp only [propagateFieldsToSeries]
  refine LinkedSame.trans ?_ (hdates _)
  refine LinkedSame.trans ?_ (linkedSame_syncGuarded _ sync)
  refine LinkedSame.trans ?_ (linkedSame_syncAmount _ sync)
  refine LinkedSame.trans ?_ (htemplate _)
  refine LinkedSame.trans ?_ (haccount _)
  exact (hdescription db).trans (hcategory _)

/-! ## The template -/

theorem updateTemplate_same {db : Db} {test : RecurringTransaction → Bool}
    {f : RecurringTransaction → RecurringTransaction} {r : RecurringTransaction}
    (hr : db.recurring.get? recurringId = some r) (hf : f r = r) :
    (updateTemplate db orgId recurringId test f).recurring.get? recurringId = some r := by
  unfold updateTemplate
  dsimp only
  rw [Table.get?_modify_self hr]
  split
  · rw [hf]
  · rfl

/-- The values a sync carries are the template's. -/
structure CarriesTemplate (sync : SeriesSync) (r : RecurringTransaction) : Prop where
  description : ∀ d ∈ sync.description, r.description = d
  category : ∀ c ∈ sync.categoryId, r.categoryId = c
  account : ∀ a ∈ sync.accountId, r.accountId = a
  amount : ∀ a ∈ sync.amount, r.amount = a
  dates : sync.dateMove = none

theorem carries_syncOfTemplate (was r : RecurringTransaction) : CarriesTemplate (syncOfTemplate was r) r := by
  have hif : ∀ {α : Type} {c : Prop} [Decidable c] {a : α}, ∀ x ∈ (if c then some a else none), a = x := by
    intro α c _ a x hx
    split at hx
    · exact Option.some.inj hx
    · cases hx
  exact ⟨hif, hif, hif, hif, rfl⟩

theorem syncAmount_recurring (sync : SeriesSync) (db : Db) :
    (syncAmount orgId recurringId sync db).recurring = db.recurring := by
  unfold syncAmount
  split
  · rfl
  · rfl

theorem syncGuarded_recurring (sync : SeriesSync) (db : Db) :
    (syncGuarded orgId recurringId sync db).recurring = db.recurring := by
  unfold syncGuarded
  extract_lets targets idsOf named categorised
  have hnamed : named.recurring = db.recurring := by
    unfold named
    split
    · rfl
    · rfl
  have hcategorised : categorised.recurring = db.recurring := by
    rw [← hnamed]
    unfold categorised
    split
    · rfl
    · rfl
  rw [← hcategorised]
  split
  · rfl
  · rfl

theorem syncDates_recurring (sync : SeriesSync) (db : Db) : (syncDates orgId sync db).recurring = db.recurring := by
  unfold syncDates
  split
  · rfl
  · rfl

/-- The template writes of a template's own sync write what is there. -/
theorem propagate_template {db : Db} {sync : SeriesSync} {r : RecurringTransaction} (h : CarriesTemplate sync r)
    (hr : db.recurring.get? recurringId = some r) :
    (propagateFieldsToSeries db orgId recurringId sync).recurring.get? recurringId = some r := by
  have hdescription : ∀ s : Db, s.recurring.get? recurringId = some r →
      (syncDescription orgId recurringId sync s).recurring.get? recurringId = some r := by
    intro s hs
    unfold syncDescription
    split
    · exact hs
    · rename_i description hsome
      obtain rfl := h.description _ hsome
      have hsame : (updateTemplate s orgId recurringId (fun _ => true)
          (fun r' => { r' with description := r.description })).recurring.get? recurringId = some r :=
        updateTemplate_same hs rfl
      split
      · exact hsame
      · exact hsame
  have hcategory : ∀ s : Db, s.recurring.get? recurringId = some r →
      (syncCategory orgId recurringId sync s).recurring.get? recurringId = some r := by
    intro s hs
    unfold syncCategory
    split
    · exact hs
    · rename_i categoryId hsome
      obtain rfl := h.category _ hsome
      have hsame : (updateTemplate s orgId recurringId (fun r' => r'.type == sync.txType)
          (fun r' => { r' with categoryId := r.categoryId })).recurring.get? recurringId = some r :=
        updateTemplate_same hs rfl
      split
      · exact hsame
      · exact hsame
  have haccount : ∀ s : Db, s.recurring.get? recurringId = some r →
      (syncAccount orgId recurringId sync s).recurring.get? recurringId = some r := by
    intro s hs
    unfold syncAccount
    split
    · exact hs
    · rename_i accountId hsome
      obtain rfl := h.account _ hsome
      have hsame : (updateTemplate s orgId recurringId (fun r' => r'.type != .transfer)
          (fun r' => { r' with accountId := r.accountId })).recurring.get? recurringId = some r :=
        updateTemplate_same hs rfl
      split
      · exact hsame
      · exact hsame
  have hvalues : ∀ s : Db, s.recurring.get? recurringId = some r →
      (syncTemplateValues orgId recurringId sync s).recurring.get? recurringId = some r := by
    intro s hs
    refine updateTemplate_same hs ?_
    rw [h.dates]
    cases hamount : sync.amount with
    | none => rfl
    | some amount =>
      obtain rfl := h.amount _ hamount
      rfl
  simp only [propagateFieldsToSeries]
  rw [syncDates_recurring, syncGuarded_recurring, syncAmount_recurring]
  exact hvalues _ (haccount _ (hcategory _ (hdescription db hr)))

/-! ## Pairs -/

/-- A leg of the series that may be rewritten: pending, live, and no row is matched to it but its
partner. -/
structure PendingLeg (db : Db) (orgId recurringId id : Nat) (t : Transaction) : Prop where
  get : db.transactions.get? id = some t
  org : t.orgId = orgId
  series : t.recurringId = some recurringId
  pending : t.status = .pending
  live : t.reconciliationState.isReverted = false
  alone : ∀ i s, db.transactions.get? i = some s → s.orgId = orgId → s.linkedTransactionId = some id →
    t.linkedTransactionId = some i

/-- Two legs a template's sync may rewrite: each is the other's partner, and the first one spends. -/
structure PendingPair (db : Db) (orgId recurringId : Nat) (exp inc : Row) : Prop where
  expLeg : PendingLeg db orgId recurringId exp.1 exp.2
  incLeg : PendingLeg db orgId recurringId inc.1 inc.2
  spends : exp.2.type = .expense
  there : exp.2.linkedTransactionId = some inc.1
  back : inc.2.linkedTransactionId = some exp.1
  apart : inc.1 ≠ exp.1

theorem mem_transferLegs {db : Db} {id : Nat} {t : Transaction} :
    (id, t) ∈ db.transactions.select (fun id t =>
        t.orgId == orgId && t.recurringId == some recurringId && t.status == .pending &&
          t.linkedTransactionId.isSome && !t.reconciliationState.isReverted &&
          (db.transactions.select (fun i s => s.orgId == orgId && s.linkedTransactionId == some id &&
            t.linkedTransactionId != some i)).isEmpty) ↔
      PendingLeg db orgId recurringId id t ∧ t.linkedTransactionId.isSome = true := by
  rw [Table.mem_select]
  simp only [Bool.and_eq_true, beq_iff_eq, Bool.not_eq_true', List.isEmpty_iff]
  constructor
  · rintro ⟨hget, ⟨⟨⟨⟨horg, hseries⟩, hpending⟩, hlinked⟩, hlive⟩, hnone⟩
    refine ⟨⟨hget, horg, hseries, hpending, hlive, fun i s hs hsOrg hsLink => ?_⟩, hlinked⟩
    by_contra hother
    have hmem : (i, s) ∈ db.transactions.select (fun i s => s.orgId == orgId && s.linkedTransactionId == some id &&
        t.linkedTransactionId != some i) := by
      rw [Table.mem_select]
      exact ⟨hs, by simp [hsOrg, hsLink, hother]⟩
    rw [hnone] at hmem
    cases hmem
  · rintro ⟨hleg, hlinked⟩
    refine ⟨hleg.get, ⟨⟨⟨⟨hleg.org, hleg.series⟩, hleg.pending⟩, hlinked⟩, hleg.live⟩, ?_⟩
    rw [List.eq_nil_iff_forall_not_mem]
    rintro ⟨i, s⟩ hmem
    obtain ⟨hs, htest⟩ := Table.mem_select.mp hmem
    simp only [Bool.and_eq_true, beq_iff_eq, bne_iff_ne] at htest
    exact htest.2 (hleg.alone i s hs htest.1.1 htest.1.2)

theorem mem_pendingTransferPairs_iff {db : Db} {exp inc : Row} :
    (exp, inc) ∈ pendingTransferPairs db orgId recurringId ↔ PendingPair db orgId recurringId exp inc := by
  unfold pendingTransferPairs
  extract_lets legs
  have hleg : ∀ row : Row, row ∈ legs ↔
      PendingLeg db orgId recurringId row.1 row.2 ∧ row.2.linkedTransactionId.isSome = true := fun row => mem_transferLegs
  rw [List.mem_filterMap]
  constructor
  · rintro ⟨row, hrow, hmade⟩
    cases hpartner : lockedPartner legs row.2 with
    | none =>
      rw [hpartner] at hmade
      cases hmade
    | some partner =>
      simp only [hpartner] at hmade
      split at hmade
      · rename_i hpair
        obtain ⟨rfl, rfl⟩ := Prod.mk.inj (Option.some.inj hmade)
        obtain ⟨l, -, hfind⟩ := Option.bind_eq_some_iff.mp hpartner
        obtain ⟨hmem, -⟩ := mem_of_lockedRow hfind
        have hrec := hpair.2
        simp only [isReciprocalPair, Bool.and_eq_true, beq_iff_eq, bne_iff_ne] at hrec
        exact ⟨((hleg _).mp hrow).1, ((hleg _).mp hmem).1, hpair.1, hrec.1.1.1, hrec.2, hrec.1.1.2⟩
      · cases hmade
  · intro hpair
    have hexp : exp ∈ legs := (hleg exp).mpr ⟨hpair.expLeg, by rw [hpair.there]; rfl⟩
    have hinc : (inc.1, inc.2) ∈ legs := (hleg inc).mpr ⟨hpair.incLeg, by rw [hpair.back]; rfl⟩
    refine ⟨exp, hexp, ?_⟩
    have hpartner : lockedPartner legs exp.2 = some (inc.1, inc.2) := by
      rw [lockedPartner, hpair.there, Option.bind_some]
      exact lockedRow_select hinc
    have hrec : isReciprocalPair exp (some (inc.1, inc.2)) = true := by
      simp [isReciprocalPair, hpair.there, hpair.back, hpair.apart, hpair.incLeg.org, hpair.expLeg.org]
    simp only [hpartner]
    rw [if_pos ⟨hpair.spends, hrec⟩]

/-- Linked rows are what a pair is made of. -/
theorem PendingPair.of_linkedSame {db db' : Db} (h : LinkedSame db db') {exp inc : Row}
    (hpair : PendingPair db orgId recurringId exp inc) : PendingPair db' orgId recurringId exp inc := by
  have hleg : ∀ {row : Row} {l : Nat}, row.2.linkedTransactionId = some l →
      PendingLeg db orgId recurringId row.1 row.2 → PendingLeg db' orgId recurringId row.1 row.2 := by
    intro row l hlink hrow
    refine ⟨(h _ _ (by rw [hlink]; exact Option.some_ne_none l)).mpr hrow.get, hrow.org, hrow.series, hrow.pending,
      hrow.live, fun i s hs hsOrg hsLink => ?_⟩
    exact hrow.alone i s ((h i s (by rw [hsLink]; exact Option.some_ne_none _)).mp hs) hsOrg hsLink
  exact ⟨hleg hpair.there hpair.expLeg, hleg hpair.back hpair.incLeg, hpair.spends, hpair.there, hpair.back, hpair.apart⟩

/-- A pair whose legs are still on the template's accounts. -/
structure UntouchedPair (db : Db) (orgId recurringId : Nat) (was : RecurringTransaction) (exp inc : Row) : Prop
    extends PendingPair db orgId recurringId exp inc where
  earns : inc.2.type = .income
  source : exp.2.accountId = was.accountId
  destination : some inc.2.accountId = was.toAccountId

/-- No other pair of the series has a leg in common with one that earns where it does not spend. -/
theorem PendingPair.eq_of_shared {db : Db} {exp inc exp' inc' : Row} (h : PendingPair db orgId recurringId exp inc)
    (hearns : inc.2.type = .income) (h' : PendingPair db orgId recurringId exp' inc') :
    (exp'.1 = exp.1 → exp' = exp ∧ inc' = inc) ∧ (inc'.1 = inc.1 → exp' = exp ∧ inc' = inc) ∧
      exp'.1 ≠ inc.1 ∧ inc'.1 ≠ exp.1 := by
  have hsame : ∀ {row row' : Row}, PendingLeg db orgId recurringId row.1 row.2 →
      PendingLeg db orgId recurringId row'.1 row'.2 → row'.1 = row.1 → row' = row := by
    intro row row' hrow hrow' hid
    refine Prod.ext hid ?_
    have hget := hrow'.get
    rw [hid, hrow.get] at hget
    exact (Option.some.inj hget).symm
  have hspends : exp'.1 ≠ inc.1 := by
    intro hid
    obtain rfl := hsame h.incLeg h'.expLeg hid
    rw [h'.spends] at hearns
    cases hearns
  have hboth : exp'.1 = exp.1 → exp' = exp ∧ inc' = inc := by
    intro hid
    obtain rfl := hsame h.expLeg h'.expLeg hid
    exact ⟨rfl, hsame h.incLeg h'.incLeg (Option.some.inj (h'.there.symm.trans h.there))⟩
  refine ⟨hboth, fun hid => ?_, hspends, fun hid => ?_⟩
  · obtain rfl := hsame h.incLeg h'.incLeg hid
    exact hboth (Option.some.inj (h'.back.symm.trans h.back))
  · obtain rfl := hsame h.expLeg h'.incLeg hid
    exact hspends (Option.some.inj (h'.back.symm.trans h.there))

/-! ## The two legs written -/

/-- What a pair holds after an edit of its template: its accounts, and each other field that
held the old value. -/
structure PairFollows (was r : RecurringTransaction) (exp inc exp' inc' : Transaction) : Prop where
  source : exp'.accountId = r.accountId
  destination : some inc'.accountId = r.toAccountId
  amount : exp.amount = was.amount → inc.amount = was.amount → exp'.amount = r.amount ∧ inc'.amount = r.amount
  category : exp.categoryId = was.categoryId → inc.categoryId = was.categoryId →
    exp'.categoryId = r.categoryId ∧ inc'.categoryId = r.categoryId
  expName : exp.description = was.description → exp'.description = r.description
  incName : inc.description = was.description → inc'.description = r.description

/-- What an accepted edit makes of a transfer template. -/
structure TransferEdit (was r : RecurringTransaction) (body : RecurringUpdate) : Prop where
  org : r.orgId = was.orgId
  type : r.type = .transfer
  account : r.accountId = body.accountId.getD was.accountId
  destination : r.toAccountId = body.toAccountId.or was.toAccountId
  apart : body.accountId.isSome ∨ body.toAccountId.isSome → r.toAccountId ≠ some r.accountId

theorem updatedTemplate_transfer {db : Db} {today : Int} {was r : RecurringTransaction} {body : RecurringUpdate}
    (h : updatedTemplate db today orgId recurringId was body = .ok r) (htransfer : was.type = .transfer) :
    TransferEdit was r body := by
  obtain ⟨_, _, h⟩ := bind_eq_ok.mp h
  obtain ⟨_, haccounts, h⟩ := bind_eq_ok.mp h
  obtain ⟨_, htype, h⟩ := bind_eq_ok.mp h
  obtain ⟨_, _, h⟩ := bind_eq_ok.mp h
  obtain ⟨resumed, hresumed, h⟩ := bind_eq_ok.mp h
  obtain ⟨_, _, h⟩ := bind_eq_ok.mp h
  obtain ⟨_, _, h⟩ := bind_eq_ok.mp h
  obtain rfl := Except.ok.inj h
  obtain ⟨next, -, rfl⟩ := resumeTemplate_ok hresumed
  have hnone : body.type = none := by
    rw [refuse_eq_ok, not_and] at htype
    exact Option.not_isSome_iff_eq_none.mp fun hsome => htype hsome htransfer
  refine ⟨rfl, ?_, rfl, rfl, fun htouches => ?_⟩
  · show (body.type.map EntryType.toType).getD was.type = .transfer
    rw [hnone]
    exact htransfer
  · have hvalid := checkIf_eq_ok.mp haccounts htouches
    unfold validateTransferAccounts at hvalid
    rw [if_neg (fun hne => hne htransfer)] at hvalid
    obtain ⟨toId, hto, hvalid⟩ := bind_eq_ok.mp hvalid
    obtain ⟨_, hne, _⟩ := bind_eq_ok.mp hvalid
    have hto : body.toAccountId.or was.toAccountId = some toId := found_eq_ok.mp hto
    show body.toAccountId.or was.toAccountId ≠ some (body.accountId.getD was.accountId)
    rw [hto]
    intro heq
    exact refuse_eq_ok.mp hne (Option.some.inj heq)

/-- **An untouched pair follows its template unless the source is moved onto the old destination.** -/
theorem pairFollows_syncedLegs_iff {was r : RecurringTransaction} {body : RecurringUpdate} {exp inc : Transaction}
    (hedit : TransferEdit was r body) (hsource : exp.accountId = was.accountId)
    (hdestination : some inc.accountId = was.toAccountId) :
    PairFollows was r exp inc (syncedLegs was r exp inc).1 (syncedLegs was r exp inc).2 ↔
      (some r.accountId = was.toAccountId → r.accountId = was.accountId) := by
  -- the fields other than the accounts follow in any case
  have hrest : (syncedLegs was r exp inc).1.accountId = r.accountId →
      some (syncedLegs was r exp inc).2.accountId = r.toAccountId →
      PairFollows was r exp inc (syncedLegs was r exp inc).1 (syncedLegs was r exp inc).2 := by
    refine fun hexp hinc => ⟨hexp, hinc, fun he hi => ?_, fun he hi => ?_, fun he => if_pos he, fun hi => if_pos hi⟩
    · have hboth : (decide (exp.amount = inc.amount ∧ inc.amount = was.amount)) = true := by simp [he, hi]
      exact ⟨if_pos hboth, if_pos hboth⟩
    · have hboth : (decide (exp.categoryId = inc.categoryId ∧ inc.categoryId = was.categoryId)) = true := by
        simp [he, hi]
      exact ⟨if_pos hboth, if_pos hboth⟩
  obtain ⟨toId, hto⟩ : ∃ toId, r.toAccountId = some toId := by
    rw [hedit.destination, ← hdestination]
    cases body.toAccountId with
    | none => exact ⟨_, rfl⟩
    | some a => exact ⟨_, rfl⟩
  -- the accounts are the same one only where the edit names neither
  have hsame : toId = r.accountId → r.accountId = was.accountId ∧ toId = inc.accountId := by
    intro heq
    have hnone : ¬ (body.accountId.isSome ∨ body.toAccountId.isSome) := by
      intro htouches
      refine hedit.apart htouches ?_
      rw [hto, heq]
    obtain ⟨hnoSource, hnoDestination⟩ := not_or.mp hnone
    have haccount := hedit.account
    rw [Option.not_isSome_iff_eq_none.mp hnoSource] at haccount
    have hdest := hedit.destination
    rw [Option.not_isSome_iff_eq_none.mp hnoDestination, Option.none_or, hto, ← hdestination] at hdest
    exact ⟨haccount, Option.some.inj hdest⟩
  have hfirst : (syncedLegs was r exp inc).1.accountId =
      if r.accountId ≠ inc.accountId then r.accountId else exp.accountId := by
    show (if exp.accountId = was.accountId ∧ r.accountId ≠ inc.accountId then r.accountId else exp.accountId) = _
    simp only [hsource, true_and]
  have hsecond : (syncedLegs was r exp inc).2.accountId =
      if toId ≠ (syncedLegs was r exp inc).1.accountId then toId else inc.accountId := by
    show (if some inc.accountId = was.toAccountId ∧ r.toAccountId ≠ some (syncedLegs was r exp inc).1.accountId
      then r.toAccountId.getD inc.accountId else inc.accountId) = _
    simp only [hdestination, true_and, hto, Option.getD_some, ne_eq, Option.some.injEq]
  rw [← hdestination, Option.some.injEq]
  constructor
  · intro hfollows honto
    have hstays := hfollows.source
    rw [hfirst, if_neg (not_not.mpr honto), hsource] at hstays
    exact hstays.symm
  · intro hunless
    have hexp : (syncedLegs was r exp inc).1.accountId = r.accountId := by
      rw [hfirst]
      split
      · rfl
      · rename_i honto
        rw [hsource, hunless (not_not.mp honto)]
    refine hrest hexp ?_
    rw [hto, hsecond, hexp]
    split
    · rfl
    · rename_i heq
      rw [(hsame (not_not.mp heq)).2]

/-! ## The pairs of a series -/

/-- What a sync writes for one pair. -/
def pairWrites (was r : RecurringTransaction) (p : Row × Row) : List Row :=
  [(p.1.1, (syncedLegs was r p.1.2 p.2.2).1), (p.2.1, (syncedLegs was r p.1.2 p.2.2).2)]

theorem foldl_pairWrites (was r : RecurringTransaction) (pairs : List (Row × Row)) (db : Db) :
    pairs.foldl (fun db p =>
        let legs := syncedLegs was r p.1.2 p.2.2
        editTransaction (editTransaction db p.1.1 (fun _ => legs.1)) p.2.1 (fun _ => legs.2)) db =
      { db with
        transactions := (pairs.flatMap (pairWrites was r)).foldl (fun t w => t.modify w.1 (fun _ => w.2))
          db.transactions } := by
  induction pairs generalizing db with
  | nil => rfl
  | cons p pairs ih =>
    rw [List.foldl_cons, List.flatMap_cons, List.foldl_append, ih]
    rfl

theorem syncPendingTransferPairs_ok {db db' : Db} {was r : RecurringTransaction}
    (h : syncPendingTransferPairs db orgId recurringId was r = .ok db') :
    db'.recurring = db.recurring ∧
      db'.transactions = ((pendingTransferPairs db orgId recurringId).flatMap (pairWrites was r)).foldl
        (fun t w => t.modify w.1 (fun _ => w.2)) db.transactions := by
  obtain ⟨_, _, h⟩ := bind_eq_ok.mp h
  obtain rfl := Except.ok.inj h
  rw [foldl_pairWrites]
  exact ⟨rfl, rfl⟩

/-- Both legs of a pair are written, once, as the pair was found. -/
theorem syncPendingTransferPairs_legs {db db' : Db} {was r : RecurringTransaction} {exp inc : Row}
    (h : syncPendingTransferPairs db orgId recurringId was r = .ok db')
    (hpair : PendingPair db orgId recurringId exp inc) (hearns : inc.2.type = .income) :
    db'.transactions.get? exp.1 = some (syncedLegs was r exp.2 inc.2).1 ∧
      db'.transactions.get? inc.1 = some (syncedLegs was r exp.2 inc.2).2 := by
  obtain ⟨-, hwritten⟩ := syncPendingTransferPairs_ok h
  have hmem : ∀ w ∈ pairWrites was r (exp, inc),
      w ∈ (pendingTransferPairs db orgId recurringId).flatMap (pairWrites was r) := fun w hw =>
    List.mem_flatMap.mpr ⟨(exp, inc), mem_pendingTransferPairs_iff.mpr hpair, hw⟩
  -- a write to one of the two rows is the write of this pair
  have honly : ∀ w ∈ (pendingTransferPairs db orgId recurringId).flatMap (pairWrites was r),
      (w.1 = exp.1 → w.2 = (syncedLegs was r exp.2 inc.2).1) ∧
        (w.1 = inc.1 → w.2 = (syncedLegs was r exp.2 inc.2).2) := by
    intro w hw
    obtain ⟨⟨exp', inc'⟩, hother, hw⟩ := List.mem_flatMap.mp hw
    obtain ⟨hexp, hinc, hcross, hback⟩ := hpair.eq_of_shared hearns (mem_pendingTransferPairs_iff.mp hother)
    rcases List.mem_cons.mp hw with rfl | hw
    · refine ⟨fun hid => ?_, fun hid => absurd hid hcross⟩
      obtain ⟨rfl, rfl⟩ := hexp hid
      rfl
    · obtain rfl := List.mem_singleton.mp hw
      refine ⟨fun hid => absurd hid hback, fun hid => ?_⟩
      obtain ⟨rfl, rfl⟩ := hinc hid
      rfl
  rw [hwritten]
  constructor
  · exact Table.get?_overwrite _ (fun w hw => (honly w hw).1)
      ⟨_, hmem _ List.mem_cons_self, rfl⟩ hpair.expLeg.get
  · exact Table.get?_overwrite _ (fun w hw => (honly w hw).2)
      ⟨_, hmem _ (List.mem_cons_of_mem _ (List.mem_singleton_self _)), rfl⟩ hpair.incLeg.get

/-- Every untouched pair of the series holds what the edited template holds. -/
def PairsFollow (db db' : Db) (orgId recurringId : Nat) (was : RecurringTransaction) : Prop :=
  ∃ r, findRecurring db' orgId recurringId = some r ∧
    ∀ exp inc, UntouchedPair db orgId recurringId was exp inc →
      ∃ exp' inc', db'.transactions.get? exp.1 = some exp' ∧ db'.transactions.get? inc.1 = some inc' ∧
        PairFollows was r exp.2 inc.2 exp' inc'

/-- An edit that hands nothing on has changed nothing a pair holds. -/
theorem pairFollows_of_unchanged {was r : RecurringTransaction} {exp inc : Transaction}
    (hempty : (syncOfTemplate was r).isEmpty = true)
    (hcategory : r.categoryId = was.categoryId) (hto : r.toAccountId = was.toAccountId)
    (hsource : exp.accountId = was.accountId) (hdestination : some inc.accountId = was.toAccountId) :
    PairFollows was r exp inc exp inc := by
  have hsame : ∀ {α : Type} [DecidableEq α] {a b : α}, (if a ≠ b then some a else none).isNone = true → a = b := by
    intro α _ a b hnone
    by_contra hne
    rw [if_pos hne] at hnone
    cases hnone
  simp only [SeriesSync.isEmpty, syncOfTemplate, Bool.and_eq_true] at hempty
  obtain ⟨⟨⟨⟨hdescription, -⟩, haccount⟩, hamount⟩, -⟩ := hempty
  have hdescription := hsame hdescription
  have haccount := hsame haccount
  have hamount := hsame hamount
  refine ⟨?_, ?_, fun he hi => ?_, fun he hi => ?_, fun he => ?_, fun hi => ?_⟩
  · rw [hsource, haccount]
  · rw [hdestination, hto]
  · rw [he, hi, hamount]
    exact ⟨rfl, rfl⟩
  · rw [he, hi, hcategory]
    exact ⟨rfl, rfl⟩
  · rw [he, hdescription]
  · rw [hi, hdescription]

/-- **An edited transfer template takes its untouched pairs along unless its old destination becomes
its source.** -/
theorem transfer_edit_reaches_pairs_iff {db db' : Db} {today : Int} {was : RecurringTransaction}
    {body : RecurringUpdate} (hwas : findRecurring db orgId recurringId = some was) (htransfer : was.type = .transfer)
    (h : updateRecurring db today orgId recurringId body = .ok db') :
    PairsFollow db db' orgId recurringId was ↔
      ((∃ a ∈ body.accountId, some a = was.toAccountId ∧ a ≠ was.accountId) →
        ¬ ∃ exp inc, UntouchedPair db orgId recurringId was exp inc) := by
  obtain ⟨was', hwas', h⟩ := bind_eq_ok.mp h
  obtain rfl := Option.some.inj (hwas.symm.trans (found_eq_ok.mp hwas'))
  obtain ⟨r, hr, h⟩ := bind_eq_ok.mp h
  have hedit := updatedTemplate_transfer hr htransfer
  obtain ⟨hget, horg⟩ := Option.filter_eq_some_iff.mp hwas
  extract_lets edited sync db₂ at h
  have hput : edited.recurring.get? recurringId = some r := by
    unfold edited
    exact Table.get?_modify_self hget
  have hrecurring : db₂.recurring.get? recurringId = some r := by
    unfold db₂
    split
    · exact hput
    · exact propagate_template (carries_syncOfTemplate was r) hput
  have hlinked : LinkedSame db db₂ := by
    have hfirst : LinkedSame db edited := linkedSame_of_eq rfl
    unfold db₂
    split
    · exact hfirst
    · exact hfirst.trans (linkedSame_propagate edited (guarded_syncOfTemplate was r))
  have hfound : ∀ s : Db, s.recurring = db₂.recurring → findRecurring s orgId recurringId = some r := by
    intro s hs
    unfold findRecurring
    rw [hs, hrecurring]
    exact Option.filter_eq_some_iff.mpr ⟨rfl, by rw [hedit.org]; exact horg⟩
  -- what the source is moved onto
  have honto : (some r.accountId = was.toAccountId → r.accountId = was.accountId) ↔
      ¬ ∃ a ∈ body.accountId, some a = was.toAccountId ∧ a ≠ was.accountId := by
    rw [hedit.account]
    cases body.accountId with
    | none => simp
    | some a => simp
  suffices hpairs : ∀ exp inc, UntouchedPair db orgId recurringId was exp inc →
      ((∃ exp' inc', db'.transactions.get? exp.1 = some exp' ∧ db'.transactions.get? inc.1 = some inc' ∧
        PairFollows was r exp.2 inc.2 exp' inc') ↔
        ¬ ∃ a ∈ body.accountId, some a = was.toAccountId ∧ a ≠ was.accountId) by
    have hdb' : db'.recurring = db₂.recurring := by
      split at h
      · exact (syncPendingTransferPairs_ok h).1
      · rw [← Except.ok.inj h]
    constructor
    · rintro ⟨r', hr', hall⟩ hmoved ⟨exp, inc, hpair⟩
      obtain rfl := Option.some.inj ((hfound db' hdb').symm.trans hr')
      exact (hpairs exp inc hpair).mp (hall exp inc hpair) hmoved
    · intro hunless
      refine ⟨r, hfound db' hdb', fun exp inc hpair => (hpairs exp inc hpair).mpr fun hmoved => ?_⟩
      exact hunless hmoved ⟨exp, inc, hpair⟩
  intro exp inc hpair
  have hlegs : PendingPair db₂ orgId recurringId exp inc := hpair.toPendingPair.of_linkedSame hlinked
  rw [← honto]
  split at h
  · obtain ⟨hexp, hinc⟩ := syncPendingTransferPairs_legs h hlegs hpair.earns
    rw [← pairFollows_syncedLegs_iff hedit hpair.source hpair.destination]
    constructor
    · rintro ⟨exp', inc', hexp', hinc', hfollows⟩
      obtain rfl := Option.some.inj (hexp.symm.trans hexp')
      obtain rfl := Option.some.inj (hinc.symm.trans hinc')
      exact hfollows
    · exact fun hfollows => ⟨_, _, hexp, hinc, hfollows⟩
  · rename_i hkeep
    rw [not_and_or, not_or, not_or, not_not, not_not, not_not] at hkeep
    obtain ⟨hempty, hcategory, hto⟩ := hkeep.resolve_left (fun hne => hne hedit.type)
    obtain rfl := Except.ok.inj h
    have hfollows : PairFollows was r exp.2 inc.2 exp.2 inc.2 :=
      pairFollows_of_unchanged hempty hcategory hto hpair.source hpair.destination
    refine ⟨fun _ _ => ?_, fun _ => ⟨_, _, hlegs.expLeg.get, hlegs.incLeg.get, hfollows⟩⟩
    rw [← hfollows.source, hpair.source]

theorem standing_amount_pos : (0 : Int) < 5000 := by decide

/-- Three accounts, and a monthly transfer from the first to the second. -/
def standingOrder : RecurringTransaction :=
  { orgId := 1, accountId := 1, toAccountId := some 2, categoryId := 1, description := "Savings"
    amount := ⟨5000, standing_amount_pos⟩, type := .transfer, frequency := .monthly, nextDueDate := 739500 }

def standingLeg (type : TransactionType) (accountId partner : Nat) : Transaction :=
  { orgId := 1, accountId, categoryId := 1, description := "Savings", amount := ⟨5000, standing_amount_pos⟩, type
    status := .pending, linkedTransactionId := some partner, recurringId := some 1, date := 739470 }

/-- The order with its one pending pair. -/
def standingDb : Db :=
  { organizations := Table.empty.insert {}
    accounts := ((Table.empty.insert { orgId := 1, name := "Current" }).insert
      { orgId := 1, name := "Savings" }).insert { orgId := 1, name := "Cash" }
    recurring := Table.empty.insert standingOrder
    transactions := (Table.empty.insert (standingLeg .expense 1 2)).insert (standingLeg .income 2 1) }

/-- A new destination, amount and name reach the pair. -/
theorem transfer_edit_reaches_pairs_new_destination : ∃ db',
    updateRecurring standingDb 739450 1 1
      { toAccountId := some 3, amount := some ⟨7000, by decide⟩, description := some "Cash box" } = .ok db' ∧
      PairsFollow standingDb db' 1 1 standingOrder := by
  have hok : (updateRecurring standingDb 739450 1 1
      { toAccountId := some 3, amount := some ⟨7000, by decide⟩, description := some "Cash box" }).isOk = true := by
    decide +kernel
  obtain ⟨db', h⟩ := exists_of_isOk hok
  refine ⟨db', h, (transfer_edit_reaches_pairs_iff rfl rfl h).mpr ?_⟩
  rintro ⟨a, ha, -⟩
  cases ha

/-- Where the order is to run from its old destination on to a third account, the pair ends between
the first and the third. -/
theorem pair_left_between_orders : ∃ db',
    updateRecurring standingDb 739450 1 1 { accountId := some 2, toAccountId := some 3 } = .ok db' ∧
      (db'.transactions.get? 1).map (·.accountId) = some 1 ∧ (db'.transactions.get? 2).map (·.accountId) = some 3 ∧
      ¬ PairsFollow standingDb db' 1 1 standingOrder := by
  have hok : (updateRecurring standingDb 739450 1 1 { accountId := some 2, toAccountId := some 3 }).isOk = true := by
    decide +kernel
  obtain ⟨db', h⟩ := exists_of_isOk hok
  have hlegs : (updateRecurring standingDb 739450 1 1 { accountId := some 2, toAccountId := some 3 }).map (fun s =>
      ((s.transactions.get? 1).map (·.accountId), (s.transactions.get? 2).map (·.accountId),
        (findRecurring s 1 1).map (·.accountId))) = .ok (some 1, some 3, some 2) := by decide +kernel
  rw [h] at hlegs
  obtain ⟨hexp, hlegs⟩ := Prod.mk.inj (Except.ok.inj hlegs)
  obtain ⟨hinc, hmoved⟩ := Prod.mk.inj hlegs
  refine ⟨db', h, hexp, hinc, ?_⟩
  rintro ⟨r, hr, hall⟩
  have hpairs : pendingTransferPairs standingDb 1 1 = [((1, standingLeg .expense 1 2), (2, standingLeg .income 2 1))] := rfl
  have hpair : PendingPair standingDb 1 1 (1, standingLeg .expense 1 2) (2, standingLeg .income 2 1) := by
    rw [← mem_pendingTransferPairs_iff, hpairs]
    exact List.mem_singleton_self _
  obtain ⟨exp', _, hexp', -, hfollows⟩ := hall _ _ ⟨hpair, rfl, rfl, rfl⟩
  rw [hexp', Option.map_some, Option.some.injEq, hfollows.source] at hexp
  rw [hr, Option.map_some, Option.some.injEq, hexp] at hmoved
  cases hmoved

end BetterDecision
