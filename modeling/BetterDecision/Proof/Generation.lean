import BetterDecision.Model.ForecastWindow
import BetterDecision.Proof.Dates
import BetterDecision.Proof.Writes

/-!
# What a generation run does

A run settles the due rows of the auto-settle templates and then walks each due
template from its frontier. Both halves are read once here. The sweep is one rewrite of
the transactions and one credit of the accounts (`settleDueAuto_ok`); a round of the
walk consumes one occurrence and, where no row stands for it, writes it (`Round`). What
a run leaves alone or moves is then an induction on its rounds (`generateFor_measure`).

Two totals are followed through: `rowSum`, over the rows a table holds, and `comingSum`,
over the occurrences that still have to come in a window. A written occurrence leaves
the second and enters the first.
-/

namespace BetterDecision

variable {db db' db'' : Db} {today : Int} {orgId recurringId : Nat} {r : RecurringTransaction} {due : Int}

/-! ## The sweep -/

/-- A row as the sweep leaves it. -/
def settledRow (t : Transaction) : Transaction :=
  { t with status := .settled, settledDate := some (t.settledDate.getD t.date) }

theorem settledRow_settledRow (t : Transaction) : settledRow (settledRow t) = settledRow t := rfl

theorem settleRows_ok (rows : List Row) (horg : ∀ row ∈ rows, row.2.orgId = orgId)
    (h : rows.foldlM (settleRow orgId) db = .ok db') :
    db' = ({ db with transactions :=
      db.transactions.mapRows (fun i t => if i ∈ rows.map Prod.fst then settledRow t else t) }).credited
        (rows.map (fun row : Row => posting row.2)).sum := by
  have key : db' = ({ db with transactions :=
      (rows.map Prod.fst).foldl (fun t i => t.modify i settledRow) db.transactions }).credited
        (rows.map (fun row : Row => posting row.2)).sum := by
    induction rows generalizing db with
    | nil =>
      rw [List.foldlM_nil, pure_eq_ok] at h
      rw [← h]
      simp
    | cons row rows ih =>
      rw [List.foldlM_cons, bind_eq_ok] at h
      obtain ⟨mid, hrow, hrest⟩ := h
      have hmid := applyRow_ok (horg row List.mem_cons_self) hrow
      rw [ih (fun x hx => horg x (List.mem_cons_of_mem _ hx)) hrest, hmid]
      simp only [List.map_cons, List.foldl_cons, List.sum_cons, Db.credited, editTransaction, credit_credit]
      rfl
  rw [key, Table.foldl_modify settledRow settledRow_settledRow]

/-- A due row is a pending row of the org's that is due. -/
theorem dueAutoSettleRows_spec {row : Row} (h : row ∈ dueAutoSettleRows db today orgId) :
    db.transactions.get? row.1 = some row.2 ∧ row.2.orgId = orgId ∧ row.2.status = .pending ∧
      effectivePeriodDate row.2 ≤ today ∧ balanceContributionFilter db.transactions row = true := by
  obtain ⟨i, t⟩ := row
  obtain ⟨hget, htest⟩ := Table.mem_select.mp h
  simp only [Bool.and_eq_true, beq_iff_eq, decide_eq_true_eq] at htest
  exact ⟨hget, htest.1.1.1.1, htest.1.1.1.2, htest.1.2, htest.2⟩

theorem mem_dueAutoSettleUnits {row : Row} (h : row ∈ (dueAutoSettleUnits db today orgId).flatten) :
    row ∈ dueAutoSettleRows db today orgId := by
  obtain ⟨unit, hunit, hrow⟩ := List.mem_flatten.mp h
  obtain ⟨lead, hlead, hmade⟩ := List.mem_filterMap.mp hunit
  dsimp only at hmade
  split at hmade
  · rename_i hpair
    split at hmade
    · obtain rfl : lead :: (lockedPartner (dueAutoSettleRows db today orgId) lead.2).toList = unit :=
        Option.some.inj hmade
      rcases List.mem_cons.mp hrow with rfl | hrow
      · exact hlead
      · rw [Option.mem_toList] at hrow
        obtain ⟨l, hl, hfind⟩ := Option.bind_eq_some_iff.mp hrow
        exact List.mem_of_find?_eq_some hfind
    · cases hmade
  · split at hmade
    · cases hmade
    · obtain rfl : [lead] = unit := Option.some.inj hmade
      obtain rfl : row = lead := by simpa using hrow
      exact hlead

/-- **The sweep settles its rows and credits their accounts, and touches nothing else.** -/
theorem settleDueAuto_ok {n : Nat} (h : settleDueAuto db today orgId = .ok (db', n)) :
    db' = ({ db with transactions := db.transactions.mapRows (fun i t =>
      if i ∈ ((dueAutoSettleUnits db today orgId).flatten).map Prod.fst then settledRow t else t) }).credited
        (((dueAutoSettleUnits db today orgId).flatten).map (fun row : Row => posting row.2)).sum := by
  obtain ⟨-, -, h⟩ := bind_eq_ok.mp h
  obtain ⟨mid, hrows, h⟩ := bind_eq_ok.mp h
  obtain rfl : mid = db' := (Prod.mk.inj (Except.ok.inj h)).1
  exact settleRows_ok _ (fun row hrow => (dueAutoSettleRows_spec (mem_dueAutoSettleUnits hrow)).2.1) hrows

/-! ## Writing an occurrence -/

/-- The row of an occurrence, before it is made a leg. -/
def occurrenceRow (orgId recurringId : Nat) (r : RecurringTransaction) (due : Int) (settled : Bool) :
    Transaction :=
  { orgId, accountId := r.accountId, categoryId := r.categoryId, description := r.description
    amount := r.amount, type := r.type, status := if settled then .settled else .pending, date := due
    settledDate := if settled then some due else none
    recurringId := some recurringId
    recurringOriginId := if r.type = .transfer then some recurringId else none }

/-- The leg of a transfer that the row is made into. -/
def legOf (row : Transaction) (type : TransactionType) (accountId : Nat) : Transaction :=
  { row with type, accountId }

/-- The rows of an occurrence, the first of them under the id `next`: one row, or for a
transfer an expense leg and an income leg linked to each other. -/
def occurrenceRows (orgId recurringId : Nat) (r : RecurringTransaction) (due : Int) (settled : Bool)
    (next : Nat) : List Transaction :=
  let row := occurrenceRow orgId recurringId r due settled
  if r.type = .transfer then
    r.toAccountId.toList.flatMap (fun toAccountId =>
      [withLink (some (next + 1)) (legOf row .expense r.accountId),
        withLink (some next) (legOf row .income toAccountId)])
  else [row]

/-- Whether generation writes an occurrence settled. -/
def settlesAt (today : Int) (r : RecurringTransaction) (due : Int) : Bool :=
  r.autoSettle && decide (due ≤ today)

theorem linkLegs_ok {expense income : Row} (h : linkPair db expense income false none = .ok db') :
    ∃ pairings, db' = { db with
      transactions := (db.transactions.modify expense.1 (withLink (some income.1))).modify income.1
        (withLink (some expense.1))
      pairings } := by
  unfold linkPair at h
  iterate 9 obtain ⟨-, -, h⟩ := bind_eq_ok.mp h
  obtain ⟨mid, hmid, h⟩ := bind_eq_ok.mp h
  obtain rfl : db = mid := by simpa using hmid
  exact ⟨_, (Except.ok.inj h).symm⟩

theorem createOccurrence_eq :
    createOccurrence db today orgId recurringId r due true false =
     (let base := occurrenceRow orgId recurringId r due (settlesAt today r due)
      if r.type = .transfer then do
        let toAccountId ← found r.toAccountId .integrity
        let expense := legOf base .expense r.accountId
        let income := legOf base .income toAccountId
        let linked ← linkPair (insertTransaction (insertTransaction db expense) income)
          (db.transactions.next, expense) (db.transactions.next + 1, income) false none
        let paid ← doIf (settlesAt today r due) (fun db => applyRow db orgId expense) linked
        let both ← doIf (settlesAt today r due) (fun db => applyRow db orgId income) paid
        .ok (both, expense)
      else do
        let paid ← doIf (settlesAt today r due) (fun db => applyRow db orgId base) (insertTransaction db base)
        .ok (paid, base)) := by
  unfold createOccurrence
  by_cases hs : settlesAt today r due = true
  · have hs' : r.autoSettle = true ∧ due ≤ today := by simpa [settlesAt] using hs
    simp only [hs, hs', and_self, if_true, occurrenceRow, decide_true]
    rfl
  · have hs' : ¬ (r.autoSettle = true ∧ due ≤ today) := by simpa [settlesAt] using hs
    simp only [hs, hs', occurrenceRow]
    rfl

/-- Two rows added and then linked are two linked rows added. -/
theorem insert_pair (rows : Table Transaction) (expense income : Transaction) :
    (((rows.insert expense).insert income).modify rows.next (withLink (some (rows.next + 1)))).modify
        (rows.next + 1) (withLink (some rows.next)) =
      (rows.insert (withLink (some (rows.next + 1)) expense)).insert (withLink (some rows.next) income) := by
  have hfirst := Table.modify_insert_of_ne (t := rows.insert expense) (a := income) (i := rows.next)
    (f := withLink (some (rows.next + 1))) (by rw [Table.next_insert]; omega)
  rw [hfirst, Table.modify_insert_next]
  exact Table.modify_insert_next (rows.insert _) income _

/-- **An occurrence is written as its rows, and credited if it is settled.** -/
theorem createOccurrence_ok {tx : Transaction}
    (h : createOccurrence db today orgId recurringId r due true false = .ok (db', tx)) :
    (r.type = .transfer → r.toAccountId.isSome = true) ∧ ∃ pairings, db' = ({ db with
      transactions := (occurrenceRows orgId recurringId r due (settlesAt today r due)
        db.transactions.next).foldl Table.insert db.transactions
      pairings }).credited
        (((occurrenceRows orgId recurringId r due (settlesAt today r due)
          db.transactions.next).map (postingIf (settlesAt today r due))).sum) := by
  rw [createOccurrence_eq] at h
  dsimp only at h
  unfold occurrenceRows
  split at h
  · rename_i htransfer
    rw [if_pos htransfer]
    obtain ⟨toAccountId, hto, h⟩ := bind_eq_ok.mp h
    obtain ⟨linked, hlink, h⟩ := bind_eq_ok.mp h
    obtain ⟨paid, hpaid, h⟩ := bind_eq_ok.mp h
    obtain ⟨both, hboth, h⟩ := bind_eq_ok.mp h
    have hdb' : both = db' := (Prod.mk.inj (Except.ok.inj h)).1
    obtain ⟨pairings, hlinked⟩ := linkLegs_ok hlink
    rw [← hdb', doIf_applyRow_ok rfl hboth, doIf_applyRow_ok rfl hpaid, hlinked, found_eq_ok.mp hto]
    refine ⟨fun _ => rfl, pairings, ?_⟩
    simp only [Option.toList_some, List.flatMap_singleton, List.foldl_cons, List.foldl_nil, Db.credited,
      insertTransaction, credit_credit, List.map_cons, List.map_nil, List.sum_cons, List.sum_nil, add_zero,
      insert_pair]
    rfl
  · rename_i hplain
    rw [if_neg hplain]
    obtain ⟨paid, hpaid, h⟩ := bind_eq_ok.mp h
    obtain rfl : paid = db' := (Prod.mk.inj (Except.ok.inj h)).1
    rw [doIf_applyRow_ok rfl hpaid]
    refine ⟨fun htransfer => absurd htransfer hplain, db.pairings, ?_⟩
    simp only [insertTransaction, List.foldl_cons, List.foldl_nil, List.map_cons, List.map_nil,
      List.sum_cons, List.sum_nil, add_zero]

/-! ## One round of the walk -/

/-- What a run leaves as it was: the tables it never writes, and of the accounts all but the
balances. -/
structure Untouched (db db' : Db) : Prop where
  accounts : ∃ μ, db'.accounts = credit db.accounts μ
  organizations : db'.organizations = db.organizations
  categories : db'.categories = db.categories
  importBatches : db'.importBatches = db.importBatches
  billingPeriods : db'.billingPeriods = db.billingPeriods
  budgets : db'.budgets = db.budgets
  ccCyclePayments : db'.ccCyclePayments = db.ccCyclePayments

theorem Untouched.refl (db : Db) : Untouched db db := ⟨⟨0, (credit_zero _).symm⟩, rfl, rfl, rfl, rfl, rfl, rfl⟩

theorem Untouched.trans (h : Untouched db db') (k : Untouched db' db'') : Untouched db db'' where
  accounts := by
    obtain ⟨μ, hμ⟩ := h.accounts
    obtain ⟨ν, hν⟩ := k.accounts
    exact ⟨μ + ν, by rw [hν, hμ, credit_credit]⟩
  organizations := k.organizations.trans h.organizations
  categories := k.categories.trans h.categories
  importBatches := k.importBatches.trans h.importBatches
  billingPeriods := k.billingPeriods.trans h.billingPeriods
  budgets := k.budgets.trans h.budgets
  ccCyclePayments := k.ccCyclePayments.trans h.ccCyclePayments

/-- The rows a round writes: none where one already stands for the occurrence. -/
def roundRows (db : Db) (today : Int) (orgId recurringId : Nat) (r : RecurringTransaction) : List Transaction :=
  if occurrenceExists db orgId recurringId r.nextDueDate then []
  else occurrenceRows orgId recurringId r r.nextDueDate (settlesAt today r r.nextDueDate) db.transactions.next

/-- One round of a template's walk: the occurrence at the frontier is consumed, and written
where no row stands for it. -/
structure Round (today : Int) (orgId recurringId : Nat) (r : RecurringTransaction) (db db' : Db) : Prop where
  there : db.recurring.get? recurringId = some r
  org : r.orgId = orgId
  active : r.isActive = true
  left : hasBudget (remainingOccurrences r) = true
  /-- A transfer that is written has somewhere to go. -/
  paired : occurrenceExists db orgId recurringId r.nextDueDate = false →
    r.type = .transfer → r.toAccountId.isSome = true
  rows : db'.transactions =
    (roundRows db today orgId recurringId r).foldl Table.insert db.transactions
  accounts : db'.accounts = credit db.accounts
    ((roundRows db today orgId recurringId r).map (postingIf (settlesAt today r r.nextDueDate))).sum
  untouched : Untouched db db'
  moves : ∃ next, advanceDate r.nextDueDate r.frequency = .ok next ∧
    db'.recurring = db.recurring.modify recurringId (fun _ => spent r next)

theorem advanceFrontier_ok (h : advanceFrontier db recurringId r due = .ok db') :
    ∃ next spends, advanceDate due r.frequency = .ok next ∧ db' = { db with
      recurring := db.recurring.modify recurringId (fun r =>
        { r with nextDueDate := next, occurrencesElapsed := r.occurrencesElapsed + 1, lastSpentDate := some due })
      spends } := by
  obtain ⟨next, hnext, h⟩ := bind_eq_ok.mp h
  exact ⟨next, _, hnext, (Except.ok.inj h).symm⟩

/-- The template is rewritten where it stands, so what it is rewritten to may be said. -/
theorem modify_spent {templates : Table RecurringTransaction} (h : templates.get? recurringId = some r) (next : Int) :
    templates.modify recurringId (fun r' =>
        { r' with nextDueDate := next, occurrencesElapsed := r'.occurrencesElapsed + 1, lastSpentDate := some r.nextDueDate }) =
      templates.modify recurringId (fun _ => spent r next) := by
  refine Table.mapRows_congr fun i a ha => ?_
  split
  · rename_i hi
    obtain rfl : r = a := by rw [hi, h] at ha; exact Option.some.inj ha
    rfl
  · rfl

/-- The two exits of the loop's body that consume an occurrence. -/
theorem round_of_exists (hr : findRecurring db orgId recurringId = some r) (hactive : r.isActive = true)
    (hleft : hasRemainingOccurrences r = true)
    (hexists : occurrenceExists db orgId recurringId r.nextDueDate = true)
    (h : advanceFrontier db recurringId r r.nextDueDate = .ok db') : Round today orgId recurringId r db db' := by
  obtain ⟨hget, horg⟩ := Option.filter_eq_some_iff.mp hr
  obtain ⟨next, spends, hnext, rfl⟩ := advanceFrontier_ok h
  have hnone : roundRows db today orgId recurringId r = [] := if_pos hexists
  exact {
    there := hget
    org := by simpa using horg
    active := hactive
    left := hleft
    paired := fun hnew => by rw [hexists] at hnew; cases hnew
    rows := by rw [hnone]; rfl
    accounts := by rw [hnone]; exact (credit_zero db.accounts).symm
    untouched := ⟨⟨0, (credit_zero db.accounts).symm⟩, rfl, rfl, rfl, rfl, rfl, rfl⟩
    moves := ⟨next, hnext, modify_spent hget next⟩ }

theorem round_of_create {mid : Db} {tx : Transaction} (hr : findRecurring db orgId recurringId = some r)
    (hactive : r.isActive = true) (hleft : hasRemainingOccurrences r = true)
    (hnew : occurrenceExists db orgId recurringId r.nextDueDate = false)
    (hmid : createOccurrence db today orgId recurringId r r.nextDueDate true false = .ok (mid, tx))
    (h : advanceFrontier mid recurringId r r.nextDueDate = .ok db') : Round today orgId recurringId r db db' := by
  obtain ⟨hget, horg⟩ := Option.filter_eq_some_iff.mp hr
  obtain ⟨next, spends, hnext, rfl⟩ := advanceFrontier_ok h
  obtain ⟨hpaired, pairings, rfl⟩ := createOccurrence_ok hmid
  have hrows : roundRows db today orgId recurringId r = _ := if_neg (by simp [hnew])
  exact {
    there := hget
    org := by simpa using horg
    active := hactive
    left := hleft
    paired := fun _ => hpaired
    rows := by rw [hrows]; rfl
    accounts := by rw [hrows]; rfl
    untouched := ⟨⟨_, rfl⟩, rfl, rfl, rfl, rfl, rfl, rfl⟩
    moves := ⟨next, hnext, modify_spent hget next⟩ }

/-! ## A template's walk -/

/-- The rounds of a walk, one a date. -/
inductive Rounds (today : Int) (orgId recurringId : Nat) : List Int → Db → Db → Prop
  | done {db : Db} : Rounds today orgId recurringId [] db db
  | round {r : RecurringTransaction} {ds : List Int} {db db' db'' : Db} :
      Round today orgId recurringId r db db' → Rounds today orgId recurringId ds db' db'' →
      Rounds today orgId recurringId (r.nextDueDate :: ds) db db''

theorem remainingOccurrences_spent (r : RecurringTransaction) (next : Int) :
    remainingOccurrences (spent r next) = spendOne (remainingOccurrences r) := by
  unfold remainingOccurrences spent spendOne
  cases r.occurrenceCount with
  | none => rfl
  | some n => simp only [Option.map_some, Option.some.injEq]; omega

theorem Round.get? (h : Round today orgId recurringId r db db') :
    ∃ next, advanceDate r.nextDueDate r.frequency = .ok next ∧
      db'.recurring.get? recurringId = some (spent r next) := by
  obtain ⟨next, hnext, hmoves⟩ := h.moves
  exact ⟨next, hnext, by rw [hmoves, Table.get?_modify_self h.there]⟩

/-- The dates a run walks a template over: its grid, cut at the cap. -/
def walkedDates (periodEnd : Int) (fuel : Nat) (r : RecurringTransaction) : List Int :=
  (grid r.frequency periodEnd r.nextDueDate (remainingOccurrences r)).take fuel

theorem walkedDates_cons {periodEnd next : Int} {fuel : Nat} (hle : r.nextDueDate ≤ periodEnd)
    (hleft : hasBudget (remainingOccurrences r) = true) (hnext : advanceDate r.nextDueDate r.frequency = .ok next) :
    walkedDates periodEnd (fuel + 1) r = r.nextDueDate :: walkedDates periodEnd fuel (spent r next) := by
  unfold walkedDates
  rw [grid_cons hle hleft, nextOccurrence_eq_some.mpr hnext, List.take_succ_cons, remainingOccurrences_spent]
  rfl

/-- **The catch-up loop walks the grid.** -/
theorem generateFor_rounds {pStart periodEnd : Int} :
    ∀ (fuel : Nat) {db db' : Db} {r : RecurringTransaction} {tally tally' : GenerateTally},
      findRecurring db orgId recurringId = some r → r.isActive = true →
      generateFor today orgId recurringId pStart periodEnd fuel (db, tally) = .ok (db', tally') →
      Rounds today orgId recurringId (walkedDates periodEnd fuel r) db db'
  | 0, db, db', r, tally, tally', _, _, h => by
    obtain rfl : db = db' := (Prod.mk.inj (Except.ok.inj h)).1
    exact .done
  | fuel + 1, db, db', r, tally, tally', hr, hactive, h => by
    unfold generateFor at h
    rw [hr] at h
    dsimp only at h
    split at h
    · rename_i hgo
      have step : ∀ {mid : Db} {t : GenerateTally}, Round today orgId recurringId r db mid →
          generateFor today orgId recurringId pStart periodEnd fuel (mid, t) = .ok (db', tally') →
          Rounds today orgId recurringId (walkedDates periodEnd (fuel + 1) r) db db' := by
        intro mid t hround hrest
        obtain ⟨next, hnext, hget⟩ := hround.get?
        rw [walkedDates_cons hgo.1 hgo.2 hnext]
        refine .round hround (generateFor_rounds fuel ?_ hactive hrest)
        rw [findRecurring, hget, Option.filter_some, if_pos (by simpa [spent] using hround.org)]
      split at h
      · rename_i hexists
        obtain ⟨mid, hmid, hrest⟩ := bind_eq_ok.mp h
        exact step (round_of_exists hr hactive hgo.2 hexists hmid) hrest
      · rename_i hnew
        obtain ⟨⟨made, tx⟩, hmade, hrest⟩ := bind_eq_ok.mp h
        obtain ⟨mid, hmid, hrest⟩ := bind_eq_ok.mp hrest
        exact step (round_of_create hr hactive hgo.2 (by simpa using hnew) hmade hmid) hrest
    · rename_i hstop
      obtain rfl : db = db' := (Prod.mk.inj (Except.ok.inj h)).1
      have hnil : walkedDates periodEnd (fuel + 1) r = [] := by
        unfold walkedDates
        by_cases hle : r.nextDueDate ≤ periodEnd
        · rw [grid_of_spent (by simpa [hasRemainingOccurrences, hle] using hstop), List.take_nil]
        · rw [grid_of_lt (by omega), List.take_nil]
      rw [hnil]
      exact .done

/-! ## What a round leaves of the other series -/

/-- The dates the rows of a series have, in a table. -/
theorem occurrenceExists_iff {d : Int} : occurrenceExists db orgId recurringId d = true ↔
    ∃ i t, db.transactions.get? i = some t ∧ t.orgId = orgId ∧ t.recurringId = some recurringId ∧ t.date = d := by
  unfold occurrenceExists seriesDates
  simp only [List.contains_iff_mem, List.mem_map]
  constructor
  · rintro ⟨⟨i, t⟩, hmem, hd⟩
    obtain ⟨hget, htest⟩ := Table.mem_select.mp hmem
    simp only [Bool.and_eq_true, beq_iff_eq] at htest
    exact ⟨i, t, hget, htest.1, htest.2, hd⟩
  · rintro ⟨i, t, hget, horg, hid, hd⟩
    exact ⟨(i, t), Table.mem_select.mpr ⟨hget, by simp [horg, hid]⟩, hd⟩

theorem mem_occurrenceRows {settled : Bool} {next : Nat} {t : Transaction}
    (h : t ∈ occurrenceRows orgId recurringId r due settled next) :
    t.orgId = orgId ∧ t.recurringId = some recurringId ∧ t.date = due ∧ t.amount = r.amount ∧
      t.categoryId = r.categoryId ∧ t.isManualAdjustment = false ∧ t.reconciliationState = .accepted ∧
      t.status = (if settled then .settled else .pending) ∧
      t.settledDate = (if settled then some due else none) := by
  unfold occurrenceRows at h
  dsimp only at h
  split at h
  · obtain ⟨toAccountId, -, hmem⟩ := List.mem_flatMap.mp h
    rcases List.mem_cons.mp hmem with rfl | hmem
    · exact ⟨rfl, rfl, rfl, rfl, rfl, rfl, rfl, rfl, rfl⟩
    · obtain rfl := List.mem_singleton.mp hmem
      exact ⟨rfl, rfl, rfl, rfl, rfl, rfl, rfl, rfl, rfl⟩
  · obtain rfl := List.mem_singleton.mp h
    exact ⟨rfl, rfl, rfl, rfl, rfl, rfl, rfl, rfl, rfl⟩

theorem get?_foldl_insert {α : Type*} (rows : List α) (t : Table α) {i : Nat} {a : α}
    (h : (rows.foldl Table.insert t).get? i = some a) : t.get? i = some a ∨ a ∈ rows := by
  induction rows generalizing t with
  | nil => exact .inl h
  | cons b rows ih =>
    rcases ih _ h with hold | hnew
    · rw [Table.get?_insert] at hold
      split at hold
      · exact .inr (List.mem_cons.mpr (.inl (Option.some.inj hold).symm))
      · exact .inl hold
    · exact .inr (List.mem_cons_of_mem _ hnew)

theorem get?_foldl_insert_of_some {α : Type*} (rows : List α) {t : Table α} {i : Nat} {a : α}
    (h : t.get? i = some a) : (rows.foldl Table.insert t).get? i = some a := by
  induction rows generalizing t with
  | nil => exact h
  | cons b rows ih => exact ih (Table.get?_insert_of_some h)

theorem mem_foldl_insert {α : Type*} (rows : List α) (t : Table α) {a : α} (h : a ∈ rows) :
    ∃ i, (rows.foldl Table.insert t).get? i = some a := by
  induction rows generalizing t with
  | nil => cases h
  | cons b rows ih =>
    rcases List.mem_cons.mp h with rfl | h
    · exact ⟨t.next, get?_foldl_insert_of_some rows (by rw [Table.get?_insert, if_pos rfl])⟩
    · exact ih _ h

/-- An occurrence is written as one row at least, if its template can be written at all. -/
theorem mem_roundRows {t : Transaction} (h : t ∈ roundRows db today orgId recurringId r) :
    occurrenceExists db orgId recurringId r.nextDueDate = false ∧
      t ∈ occurrenceRows orgId recurringId r r.nextDueDate (settlesAt today r r.nextDueDate) db.transactions.next := by
  unfold roundRows at h
  split at h
  · cases h
  · rename_i hnew
    exact ⟨by simpa using hnew, h⟩

/-- A round writes at the frontier of its own series and nowhere else. -/
theorem Round.occurrenceExists_of_ne (h : Round today orgId recurringId r db db') {j : Nat} {d : Int}
    (hne : j ≠ recurringId ∨ d ≠ r.nextDueDate) : occurrenceExists db' orgId j d = occurrenceExists db orgId j d := by
  rw [Bool.eq_iff_iff, occurrenceExists_iff, occurrenceExists_iff, h.rows]
  constructor
  · rintro ⟨i, t, hget, horg, hid, hd⟩
    rcases get?_foldl_insert _ _ hget with hold | hnew
    · exact ⟨i, t, hold, horg, hid, hd⟩
    · obtain ⟨-, hid', hd', -⟩ := mem_occurrenceRows (mem_roundRows hnew).2
      rw [hid] at hid'
      rcases hne with hne | hne
      · exact absurd (Option.some.inj hid') hne
      · exact absurd (hd.symm.trans hd') hne
  · rintro ⟨i, t, hget, horg, hid, hd⟩
    exact ⟨i, t, get?_foldl_insert_of_some _ hget, horg, hid, hd⟩

theorem Round.recurring_of_ne (h : Round today orgId recurringId r db db') {j : Nat} (hne : j ≠ recurringId) :
    db'.recurring.get? j = db.recurring.get? j := by
  obtain ⟨next, -, hmoves⟩ := h.moves
  rw [hmoves, Table.get?_modify_of_ne hne]

theorem walkedDates_sorted (periodEnd : Int) (fuel : Nat) (r : RecurringTransaction) :
    (walkedDates periodEnd fuel r).Pairwise (· < ·) := by
  unfold walkedDates
  exact (grid_sorted ..).sublist (List.take_sublist ..)

/-- What a walk leaves of the other series, and of the tables it does not write. -/
theorem Rounds.frame {ds : List Int} (h : Rounds today orgId recurringId ds db db') :
    Untouched db db' ∧ (∀ j, j ≠ recurringId → db'.recurring.get? j = db.recurring.get? j) ∧
      ∀ j d, j ≠ recurringId → occurrenceExists db' orgId j d = occurrenceExists db orgId j d := by
  induction h with
  | done => exact ⟨.refl _, fun _ _ => rfl, fun _ _ _ => rfl⟩
  | round hround _ ih =>
    obtain ⟨huntouched, hother, hheld⟩ := ih
    exact ⟨hround.untouched.trans huntouched, fun j hj => (hother j hj).trans (hround.recurring_of_ne hj),
      fun j d hj => (hheld j d hj).trans (hround.occurrenceExists_of_ne (.inl hj))⟩

/-! ## Measures of a run -/

section Measures

variable {M : Type*} [AddCommMonoid M] {E : Db → M} {δ : RecurringTransaction → Int → M}

/-- The occurrences of a series that a run writes. -/
def writtenDates (db : Db) (orgId : Nat) (periodEnd : Int) (p : Nat × RecurringTransaction) : List Int :=
  (walkedDates periodEnd maxCatchupIterations p.2).filter (fun d => !occurrenceExists db orgId p.1 d)

/-- The due templates of a run, as they stand before it. -/
def dueSeries (db : Db) (orgId : Nat) (periodEnd : Int) : List (Nat × RecurringTransaction) :=
  db.recurring.select (fun _ r => r.orgId == orgId && r.isActive && hasRemainingOccurrences r &&
    decide (r.nextDueDate ≤ periodEnd))

/-- What every round adds to a measure, a walk adds up. -/
theorem Rounds.measure (hδ : ∀ r next d, δ (spent r next) d = δ r d)
    (hE : ∀ r db db', Round today orgId recurringId r db db' →
      E db' = E db + if occurrenceExists db orgId recurringId r.nextDueDate then 0 else δ r r.nextDueDate)
    {ds : List Int} (h : Rounds today orgId recurringId ds db db') (hsorted : ds.Pairwise (· < ·))
    (hget : db.recurring.get? recurringId = some r) :
    E db' = E db + ((ds.filter (fun d => !occurrenceExists db orgId recurringId d)).map (δ r)).sum := by
  induction h generalizing r with
  | done => simp
  | @round r₀ ds db mid db' hround _ ih =>
    obtain rfl : r = r₀ := by rw [hround.there] at hget; exact (Option.some.inj hget).symm
    obtain ⟨hlt, htail⟩ := List.pairwise_cons.mp hsorted
    obtain ⟨next, -, hmid⟩ := hround.get?
    have hheld : ds.filter (fun d => !occurrenceExists mid orgId recurringId d) =
        ds.filter (fun d => !occurrenceExists db orgId recurringId d) :=
      List.filter_congr fun d hd => by rw [hround.occurrenceExists_of_ne (.inr (hlt d hd).ne')]
    rw [ih htail hmid, hE r db mid hround, hheld, funext (hδ r next), add_assoc]
    cases hexists : occurrenceExists db orgId recurringId r.nextDueDate <;> simp [hexists]

/-- **What every round adds to a measure, a run of the templates adds up**, each of them
read where it stood at first: no walk reaches another series. -/
theorem templates_measure {pStart periodEnd : Int} (hδ : ∀ r next d, δ (spent r next) d = δ r d)
    (hE : ∀ recurringId r db db', Round today orgId recurringId r db db' →
      E db' = E db + if occurrenceExists db orgId recurringId r.nextDueDate then 0 else δ r r.nextDueDate) :
    ∀ (ps : List (Nat × RecurringTransaction)) {db db' : Db} {tally tally' : GenerateTally},
      (ps.map Prod.fst).Nodup → (∀ p ∈ ps, db.recurring.get? p.1 = some p.2 ∧ p.2.orgId = orgId ∧ p.2.isActive = true) →
      (ps.map Prod.fst).foldlM (fun acc recurringId =>
        generateFor today orgId recurringId pStart periodEnd maxCatchupIterations acc) (db, tally) =
          .ok (db', tally') →
      Untouched db db' ∧
        E db' = E db + (ps.map (fun p => ((writtenDates db orgId periodEnd p).map (δ p.2)).sum)).sum
  | [], db, db', tally, tally', _, _, h => by
    rw [List.map_nil, List.foldlM_nil, pure_eq_ok] at h
    obtain rfl : db = db' := (Prod.mk.inj h).1
    exact ⟨.refl _, by simp⟩
  | p :: ps, db, db', tally, tally', hnodup, hthere, h => by
    rw [List.map_cons, List.foldlM_cons, bind_eq_ok] at h
    obtain ⟨⟨mid, tallyMid⟩, hwalk, hrest⟩ := h
    obtain ⟨hnot, hnodup⟩ := List.nodup_cons.mp hnodup
    obtain ⟨hget, horg, hactive⟩ := hthere p List.mem_cons_self
    have hfind : findRecurring db orgId p.1 = some p.2 := by
      rw [findRecurring, hget, Option.filter_some, if_pos (by simpa using horg)]
    have hrounds := generateFor_rounds maxCatchupIterations hfind hactive hwalk
    obtain ⟨huntouched, hother, hheld⟩ := hrounds.frame
    have hne : ∀ q ∈ ps, q.1 ≠ p.1 := fun q hq he => hnot (he ▸ List.mem_map_of_mem hq)
    obtain ⟨huntouched', hsum⟩ := templates_measure hδ hE ps hnodup (fun q hq =>
      ⟨(hother q.1 (hne q hq)).trans (hthere q (List.mem_cons_of_mem _ hq)).1,
        (hthere q (List.mem_cons_of_mem _ hq)).2⟩) hrest
    have hps : ps.map (fun q => ((writtenDates mid orgId periodEnd q).map (δ q.2)).sum) =
        ps.map (fun q => ((writtenDates db orgId periodEnd q).map (δ q.2)).sum) := by
      refine List.map_congr_left fun q hq => ?_
      unfold writtenDates
      simp only [hheld q.1 _ (hne q hq)]
    refine ⟨huntouched.trans huntouched', ?_⟩
    rw [hsum, hrounds.measure hδ (hE p.1) (walkedDates_sorted ..) hget, hps, List.map_cons, List.sum_cons, add_assoc]
    rfl

theorem dueSeries_nodup (db : Db) (orgId : Nat) (periodEnd : Int) :
    ((dueSeries db orgId periodEnd).map Prod.fst).Nodup :=
  (db.recurring.sorted.sublist (List.filter_sublist.map Prod.fst)).imp Nat.ne_of_lt

theorem dueSeries_spec {periodEnd : Int} {p : Nat × RecurringTransaction} (h : p ∈ dueSeries db orgId periodEnd) :
    db.recurring.get? p.1 = some p.2 ∧ p.2.orgId = orgId ∧ p.2.isActive = true := by
  obtain ⟨i, r⟩ := p
  obtain ⟨hget, htest⟩ := Table.mem_select.mp h
  simp only [Bool.and_eq_true, beq_iff_eq] at htest
  exact ⟨hget, htest.1.1.1, htest.1.1.2⟩

end Measures

/-- A run is the sweep and then the walks. -/
theorem generateDueTransactions_ok {result : GenerateResult}
    (h : generateDueTransactions db today orgId = .ok (db', result)) :
    ∃ mid n tally, settleDueAuto db today orgId = .ok (mid, n) ∧
      ((dueSeries mid orgId (currentCycleWindow (cycleDayOf db orgId) today).2).map Prod.fst).foldlM
        (fun acc recurringId => generateFor today orgId recurringId
          (currentCycleWindow (cycleDayOf db orgId) today).1 (currentCycleWindow (cycleDayOf db orgId) today).2
          maxCatchupIterations acc) (mid, {}) = .ok (db', tally) := by
  obtain ⟨⟨mid, n⟩, hsweep, h⟩ := bind_eq_ok.mp h
  obtain ⟨⟨last, tally⟩, hwalks, h⟩ := bind_eq_ok.mp h
  obtain rfl : last = db' := (Prod.mk.inj (Except.ok.inj h)).1
  exact ⟨mid, n, tally, hsweep, hwalks⟩

/-- A run leaves what `Untouched` names as it was. -/
theorem generateDueTransactions_untouched {result : GenerateResult}
    (h : generateDueTransactions db today orgId = .ok (db', result)) : Untouched db db' := by
  obtain ⟨mid, n, tally, hsweep, hwalks⟩ := generateDueTransactions_ok h
  have hmid : Untouched db mid := by
    rw [settleDueAuto_ok hsweep]
    exact ⟨⟨_, rfl⟩, rfl, rfl, rfl, rfl, rfl, rfl⟩
  obtain ⟨huntouched, -⟩ := templates_measure (E := fun _ => (0 : Int)) (δ := fun _ _ => 0)
    (fun _ _ _ => rfl) (fun _ _ _ _ _ => by rw [ite_self, add_zero]) _ (dueSeries_nodup ..)
    (fun p hp => dueSeries_spec hp) hwalks
  exact hmid.trans huntouched

/-! ## The two totals -/

section Totals

variable {M : Type*} [AddCommGroup M]

/-- The rows of a table, each weighed by whether a balance counts it, once settled, and by
what it is. -/
def rowSum (w : Bool → Transaction → M) (rows : Table Transaction) : M :=
  rows.total (fun i t => w (balanceContributionFilter rows (i, t)) t)

/-- A new row that does not link to an old one does not change whether that one counts. -/
theorem counted_insert_of_ne {rows : Table Transaction} {tx t : Transaction} {i : Nat}
    (htx : tx.linkedTransactionId ≠ some i) :
    balanceContributionFilter (rows.insert tx) (i, t) = balanceContributionFilter rows (i, t) := by
  refine balanceContributionFilter_congr rfl rfl fun l _ => ?_
  rw [linkOf, linkOf, Table.get?_insert]
  split
  · rename_i hl
    rw [hl, Table.get?_next, Option.bind_some, Option.bind_none]
    exact ⟨fun h => absurd h htx, fun h => by cases h⟩
  · rfl

/-- A row nothing links to weighs what it weighs, and the old rows weigh what they did. -/
theorem rowSum_insert (w : Bool → Transaction → M) {rows : Table Transaction} {tx : Transaction}
    (hstate : tx.reconciliationState = .accepted) (hlink : tx.linkedTransactionId = none) :
    rowSum w (rows.insert tx) = rowSum w rows + w true tx := by
  have hnew : balanceContributionFilter (rows.insert tx) (rows.next, tx) = true := by
    unfold balanceContributionFilter
    dsimp only
    rw [hstate, hlink]
    rfl
  unfold rowSum
  rw [Table.total_insert, hnew]
  congr 1
  refine Table.total_congr fun i t ht => ?_
  rw [counted_insert_of_ne (by rw [hlink]; simp)]

/-- Nor does a linked pair change what the old rows weigh, a link into the future included. -/
theorem rowSum_insert_pair (w : Bool → Transaction → M) {rows : Table Transaction} {a b : Transaction}
    (ha : a.reconciliationState = .accepted) (hb : b.reconciliationState = .accepted) :
    rowSum w ((rows.insert (withLink (some (rows.next + 1)) a)).insert (withLink (some rows.next) b)) =
      rowSum w rows + (w true (withLink (some (rows.next + 1)) a) + w true (withLink (some rows.next) b)) := by
  have hleft : balanceContributionFilter
      ((rows.insert (withLink (some (rows.next + 1)) a)).insert (withLink (some rows.next) b))
      (rows.next, withLink (some (rows.next + 1)) a) = true := by
    unfold balanceContributionFilter
    simp [withLink, ha, linkOf, Table.get?_insert, ReconciliationState.isReverted]
  have hright : balanceContributionFilter
      ((rows.insert (withLink (some (rows.next + 1)) a)).insert (withLink (some rows.next) b))
      (rows.next + 1, withLink (some rows.next) b) = true := by
    unfold balanceContributionFilter
    simp [withLink, hb, linkOf, Table.get?_insert, ReconciliationState.isReverted]
  unfold rowSum
  rw [Table.total_insert, Table.total_insert, Table.next_insert, hleft, hright, ← add_assoc]
  congr 2
  refine Table.total_congr fun i t ht => ?_
  have hi := Table.get?_lt_next ht
  rw [counted_insert_of_ne (by simp [withLink]; omega), counted_insert_of_ne (by simp [withLink]; omega)]

/-- **The rows of an occurrence weigh what they are, every one of them counted.** -/
theorem rowSum_occurrence (w : Bool → Transaction → M) (rows : Table Transaction) (settled : Bool) :
    rowSum w ((occurrenceRows orgId recurringId r due settled rows.next).foldl Table.insert rows) =
      rowSum w rows + ((occurrenceRows orgId recurringId r due settled rows.next).map (w true)).sum := by
  unfold occurrenceRows
  dsimp only
  split
  · cases r.toAccountId with
    | none => simp
    | some toAccountId =>
      simp only [Option.toList_some, List.flatMap_singleton, List.foldl_cons, List.foldl_nil,
        List.map_cons, List.map_nil, List.sum_cons, List.sum_nil, add_zero]
      exact rowSum_insert_pair w rfl rfl
  · simp only [List.foldl_cons, List.foldl_nil, List.map_cons, List.map_nil, List.sum_cons, List.sum_nil,
      add_zero]
    exact rowSum_insert w rfl rfl

theorem rowSum_of_round (h : Round today orgId recurringId r db db') (w : Bool → Transaction → M) :
    rowSum w db'.transactions =
      rowSum w db.transactions + ((roundRows db today orgId recurringId r).map (w true)).sum := by
  rw [h.rows]
  unfold roundRows
  split
  · simp
  · exact rowSum_occurrence w db.transactions _

/-- The sweep rewrites rows under their links, so what counts stays what it was. -/
theorem rowSum_sweep (w : Bool → Transaction → M) (rows : Table Transaction) (ids : List Nat) :
    rowSum w (rows.mapRows (fun i t => if i ∈ ids then settledRow t else t)) =
      rows.total (fun i t => w (balanceContributionFilter rows (i, t)) (if i ∈ ids then settledRow t else t)) := by
  unfold rowSum
  rw [Table.total_mapRows]
  refine Table.total_congr fun i t _ => ?_
  have hcount : balanceContributionFilter (rows.mapRows (fun i t => if i ∈ ids then settledRow t else t))
      (i, if i ∈ ids then settledRow t else t) = balanceContributionFilter rows (i, t) := by
    refine balanceContributionFilter_congr (by split <;> rfl) (by split <;> rfl) fun l _ => ?_
    rw [linkOf_mapRows fun j a _ => by split <;> rfl]
  rw [hcount]

/-- The probe's date bounds narrow nothing: the walk stays inside them. -/
theorem unmaterialised_eq (db : Db) (orgId : Nat) (lo hi : Int) (p : Nat × RecurringTransaction) :
    unmaterialised db orgId lo hi p =
      (occurrencesInWindow p.2.nextDueDate p.2.frequency lo hi (remainingOccurrences p.2)).filter
        (fun d => !occurrenceExists db orgId p.1 d) := by
  unfold unmaterialised
  refine List.filter_congr fun d hd => ?_
  have hbounds := mem_occurrencesInWindow_bounds hd
  rw [Bool.eq_iff_iff, Bool.not_eq_true', Bool.not_eq_true', ← Bool.not_eq_true, ← Bool.not_eq_true,
    List.contains_iff_mem, materialisedDates, List.mem_filter, occurrenceExists, List.contains_iff_mem]
  simp [hbounds]

/-- A series that has no instalment left, or starts past the window, has nothing to come in it. -/
theorem unmaterialised_of_out (db : Db) (orgId : Nat) (lo : Int) (i : Nat) {hi : Int}
    (h : ¬ (activeSeriesFilter r = true ∧ r.nextDueDate ≤ hi)) :
    r.isActive = false ∨ unmaterialised db orgId lo hi (i, r) = [] := by
  rw [unmaterialised_eq, occurrencesInWindow_eq]
  by_cases hle : r.nextDueDate ≤ hi
  · have hout : activeSeriesFilter r = false := by simpa [hle] using h
    rcases (Bool.and_eq_false_iff ..).mp hout with hout | hout
    · exact .inl hout
    · exact .inr (by rw [grid_of_spent hout]; rfl)
  · exact .inr (by rw [grid_of_lt (by dsimp only; omega)]; rfl)

/-- What comes of a series before and after the round that consumes its frontier. -/
theorem unmaterialised_of_round (lo hi : Int) {next : Int} (h : Round today orgId recurringId r db db')
    (hnext : advanceDate r.nextDueDate r.frequency = .ok next) :
    unmaterialised db orgId lo hi (recurringId, r) =
      (if (lo ≤ r.nextDueDate ∧ r.nextDueDate ≤ hi) ∧ occurrenceExists db orgId recurringId r.nextDueDate = false
        then [r.nextDueDate] else []) ++
      unmaterialised db' orgId lo hi (recurringId, spent r next) := by
  have hlt := lt_of_advanceDate hnext
  have hafter : unmaterialised db' orgId lo hi (recurringId, spent r next) =
      ((grid r.frequency hi next (spendOne (remainingOccurrences r))).filter (fun x => decide (lo ≤ x))).filter
        (fun d => !occurrenceExists db orgId recurringId d) := by
    rw [unmaterialised_eq, occurrencesInWindow_eq, remainingOccurrences_spent]
    refine List.filter_congr fun d hd => ?_
    have := mem_grid_bounds (List.mem_filter.mp hd).1
    rw [h.occurrenceExists_of_ne (.inr (by dsimp only [spent] at this; omega))]
  rw [hafter, unmaterialised_eq, occurrencesInWindow_eq]
  by_cases hhi : r.nextDueDate ≤ hi
  · rw [grid_cons hhi h.left, nextOccurrence_eq_some.mpr hnext]
    by_cases hlo : lo ≤ r.nextDueDate
    · rw [List.filter_cons_of_pos (by simpa using hlo)]
      cases hheld : occurrenceExists db orgId recurringId r.nextDueDate <;> simp [hheld, hlo, hhi]
    · rw [List.filter_cons_of_neg (by simpa using hlo)]
      simp [hlo]
  · rw [grid_of_lt (by dsimp only; omega), grid_of_lt (by omega)]
    simp [hhi]

/-- A sweep dates no row anew. -/
theorem occurrenceExists_sweep {ids : List Nat} (h : db'.transactions =
      db.transactions.mapRows (fun i t => if i ∈ ids then settledRow t else t)) (j : Nat) (d : Int) :
    occurrenceExists db' orgId j d = occurrenceExists db orgId j d := by
  unfold occurrenceExists seriesDates
  rw [h, Table.select_mapRows fun i t _ => by split <;> rfl, List.map_map]
  congr 1
  exact List.map_congr_left fun p _ => by dsimp only [Function.comp]; split <;> rfl

/-- What the series of the org still bring in a window, `v` for each occurrence. -/
def comingSum (orgId : Nat) (lo hi : Int) (v : RecurringTransaction → M) (db : Db) : M :=
  db.recurring.total (fun i r => (unmaterialised db orgId lo hi (i, r)).length • v r)

/-- **A round takes one occurrence out of what is to come, if it writes it.** -/
theorem comingSum_of_round {lo hi : Int} {v : RecurringTransaction → M}
    (h : Round today orgId recurringId r db db') (hv : ∀ r next, v (spent r next) = v r) :
    comingSum orgId lo hi v db = comingSum orgId lo hi v db' +
      if (lo ≤ r.nextDueDate ∧ r.nextDueDate ≤ hi) ∧ occurrenceExists db orgId recurringId r.nextDueDate = false
        then v r else 0 := by
  obtain ⟨next, hnext, hmoves⟩ := h.moves
  have hself := congrArg List.length (unmaterialised_of_round lo hi h hnext)
  unfold comingSum
  rw [hmoves, Table.modify, Table.total_mapRows, ← Table.total_single h.there
    (if (lo ≤ r.nextDueDate ∧ r.nextDueDate ≤ hi) ∧ occurrenceExists db orgId recurringId r.nextDueDate = false
      then v r else 0), ← Table.total_add]
  refine Table.total_congr fun j s hs => ?_
  by_cases hj : j = recurringId
  · subst hj
    obtain rfl : r = s := by rw [h.there] at hs; exact Option.some.inj hs
    rw [if_pos rfl, if_pos rfl, hv, hself, List.length_append, add_smul, add_comm]
    split <;> simp
  · have hsame : unmaterialised db' orgId lo hi (j, s) =
        unmaterialised db orgId lo hi (j, s) := by
      rw [unmaterialised_eq, unmaterialised_eq]
      exact List.filter_congr fun d _ => by rw [h.occurrenceExists_of_ne (.inl hj)]
    rw [if_neg hj, if_neg hj, hsame, add_zero]

theorem comingSum_congr {lo hi : Int} {v : RecurringTransaction → M} (hrecurring : db'.recurring = db.recurring)
    (hheld : ∀ j d, occurrenceExists db' orgId j d = occurrenceExists db orgId j d) :
    comingSum orgId lo hi v db' = comingSum orgId lo hi v db := by
  unfold comingSum
  rw [hrecurring]
  refine Table.total_congr fun i r _ => ?_
  rw [unmaterialised_eq, unmaterialised_eq]
  simp only [hheld]

end Totals

end BetterDecision
