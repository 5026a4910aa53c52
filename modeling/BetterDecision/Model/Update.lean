import BetterDecision.Model.Billing
import BetterDecision.Model.Dates
import BetterDecision.Model.Ledger

/-!
# Editing a row

`update_transaction` and what hangs off it: the sync of a recurring row's edit to
its template and pending siblings, and the bulk update.

An edit decides everything on the rows as it found them. `editedRow` and
`mirroredLeg` are the two rows it writes, and the balance moves by reverting the
old rows and applying the new ones, each only if it is inside the balance.
-/

namespace BetterDecision

open Calendar

/-! ## Series -/

/-- How many occurrences the series may still deliver, not clamped at zero. -/
def remainingOccurrences (r : RecurringTransaction) : Option Int :=
  r.occurrenceCount.map (· - r.occurrencesElapsed)

def hasRemainingOccurrences (r : RecurringTransaction) : Bool := hasBudget (remainingOccurrences r)

/-- The earliest date a `next_due_date` may hold: the start of the current cycle. -/
def frontierLowerBound (db : Db) (orgId : Nat) (today : Int) : Int :=
  (currentCycleWindow (cycleDayOf db orgId) today).1

def Frequency.value : Frequency → String
  | .weekly => "weekly"
  | .biweekly => "biweekly"
  | .monthly => "monthly"
  | .quarterly => "quarterly"
  | .yearly => "yearly"

/-- Some row of the org links to `id`. -/
def hasReferrer (db : Db) (orgId id : Nat) : Bool :=
  !(db.transactions.select (fun _ t => t.orgId == orgId && t.linkedTransactionId == some id)).isEmpty

/-- The pending siblings a sync may rewrite. -/
def seriesSyncTargets (db : Db) (orgId recurringId : Nat) (txType : Option TransactionType)
    (excludeId : Option Nat) (after : Option Int) : List Row :=
  db.transactions.select (fun id t =>
    t.recurringId == some recurringId && t.orgId == orgId && t.status == .pending &&
      t.linkedTransactionId.isNone && !t.reconciliationState.isReverted &&
      !hasReferrer db orgId id && txType.all (· == t.type) && excludeId.all (· != id) &&
      after.all (fun d => decide (d < t.date)))

/-- A validated "this and future" date move. -/
structure SeriesDateMove where
  moves : List (Nat × Int × Option Int)
  nextDueDate : Int
  lastSpentDate : Int

/-- The grid dates from `d` on that lie before `stop`, and the first that does not. -/
def gridBefore (freq : Frequency) (stop : Int) : Nat → Int → Result (List Int × Int)
  | 0, d => .ok ([], d)
  | fuel + 1, d =>
    if d < stop then do
      let next ← advanceDate d freq
      let (ds, last) ← gridBefore freq stop fuel next
      .ok (d :: ds, last)
    else .ok ([], d)

/-- As many steps from `d` as there are dates, and where they end. -/
def gridAlong (freq : Frequency) : List Int → Int → Result (List Int × Int)
  | [], d => .ok ([], d)
  | _ :: rest, d => do
    let next ← advanceDate d freq
    let (ds, last) ← gridAlong freq rest next
    .ok (next :: ds, last)

/-- Re-walk the series grid from the edited row's new date. -/
def planSeriesDateMove (db : Db) (today : Int) (orgId recurringId : Nat)
    (template : RecurringTransaction) (rowId : Nat) (oldDate newDate : Int) (txType : TransactionType) :
    Result SeriesDateMove := do
  let freq := template.frequency
  let afterOld ← advanceDate oldDate freq
  let tooFar := ServiceError.validation s!"To apply a new date to future occurrences, move it by less than one {freq.value} period, or change only this occurrence."
  refuse (afterOld ≤ newDate) tooFar
  let afterNew ← advanceDate newDate freq
  refuse (afterNew ≤ oldDate) tooFar
  let pStart := frontierLowerBound db orgId today
  refuse (newDate < pStart)
    (.validation s!"A date applied to future occurrences cannot be earlier than {isoformat pStart}, the start of the current billing cycle.")
  let (oldGrid, reached) ←
    gridBefore freq template.nextDueDate (template.nextDueDate - afterOld).toNat afterOld
  refuse (reached ≠ template.nextDueDate)
    (.validation s!"This occurrence is not on its series' schedule (the next one is due {isoformat template.nextDueDate}), so the new date cannot be applied to future occurrences. Change only this occurrence.")
  let (newGrid, lastSpentDate) ← gridAlong freq oldGrid newDate
  let newFrontier ← advanceDate lastSpentDate freq
  let slot (d : Int) : Option Int := ((oldGrid.zip newGrid).find? (fun p => p.1 == d)).map Prod.snd
  let targets := seriesSyncTargets db orgId recurringId (some txType) (some rowId) (some oldDate)
  let moves := targets.filterMap (fun t =>
    (slot t.2.date).map (fun new => (t.1, new, t.2.settledDate.map (fun s => s + (new - t.2.date)))))
  let stayingDates := (db.transactions.select (fun id t =>
    t.orgId == orgId && t.recurringId == some recurringId && id != rowId &&
      !(moves.map Prod.fst).contains id)).map (fun t => t.2.date)
  let landing := newDate :: moves.map (fun m => m.2.1)
  match (landing.filter (stayingDates.contains ·)).min? with
  | some taken =>
    .error (.conflict s!"The series already has a transaction on {isoformat taken}, so the new date cannot be applied to future occurrences. Change only this occurrence, or move that transaction first.")
  | none =>
    let latest := ((stayingDates ++ landing).max?).getD newDate
    refuse (newFrontier ≤ latest)
      (.conflict s!"The series has a transaction on {isoformat latest}, on or after where its next occurrence would move ({isoformat newFrontier}). Change only this occurrence.")
    .ok { moves, nextDueDate := newFrontier, lastSpentDate }

/-- What a sync carries. A field that did not change is `none`; a `Was` given with
its field keeps the rows whose value already differs. -/
structure SeriesSync where
  txType : TransactionType
  description : Option String := none
  descriptionWas : Option String := none
  categoryId : Option Nat := none
  categoryWas : Option Nat := none
  accountId : Option Nat := none
  accountWas : Option Nat := none
  amount : Option Amount := none
  amountWas : Option Amount := none
  amountAfter : Option Int := none
  excludeId : Option Nat := none
  dateMove : Option SeriesDateMove := none

/-- An UPDATE of the org's rows that pass a test. -/
def updateRows (db : Db) (orgId : Nat) (test : Nat → Transaction → Bool)
    (f : Transaction → Transaction) : Db :=
  { db with transactions := db.transactions.mapRows (fun id t =>
      if t.orgId = orgId ∧ test id t then f t else t) }

/-- An UPDATE of the org's template. -/
def updateTemplate (db : Db) (orgId recurringId : Nat) (test : RecurringTransaction → Bool)
    (f : RecurringTransaction → RecurringTransaction) : Db :=
  { db with recurring := db.recurring.modify recurringId (fun r =>
      if r.orgId = orgId ∧ test r then f r else r) }

/-- The row is a pending one of the series. -/
def isPendingOf (recurringId : Nat) (t : Transaction) : Bool :=
  t.recurringId == some recurringId && t.status == .pending

/-- The row is a pending one of the series and no transfer leg. -/
def isPlainPendingOf (recurringId : Nat) (t : Transaction) : Bool :=
  isPendingOf recurringId t && t.linkedTransactionId.isNone

/-- The name: the template, and every pending row unless the sync is guarded. -/
def syncDescription (orgId recurringId : Nat) (sync : SeriesSync) (db : Db) : Db :=
  match sync.description with
  | none => db
  | some description =>
    let db := updateTemplate db orgId recurringId (fun _ => true) (fun r => { r with description })
    if sync.descriptionWas.isNone then
      updateRows db orgId (fun _ t => isPendingOf recurringId t) (fun t => { t with description })
    else db

/-- The category: only where the type is the one it was validated for. -/
def syncCategory (orgId recurringId : Nat) (sync : SeriesSync) (db : Db) : Db :=
  match sync.categoryId with
  | none => db
  | some categoryId =>
    let db := updateTemplate db orgId recurringId (fun r => r.type == sync.txType)
      (fun r => { r with categoryId })
    if sync.categoryWas.isNone then
      updateRows db orgId (fun _ t => isPlainPendingOf recurringId t && t.type == sync.txType)
        (fun t => { t with categoryId })
    else db

/-- The account: never onto a transfer template, never onto a transfer leg. -/
def syncAccount (orgId recurringId : Nat) (sync : SeriesSync) (db : Db) : Db :=
  match sync.accountId with
  | none => db
  | some accountId =>
    let db := updateTemplate db orgId recurringId (fun r => r.type != .transfer)
      (fun r => { r with accountId })
    if sync.accountWas.isNone then
      updateRows db orgId (fun _ t => isPlainPendingOf recurringId t) (fun t => { t with accountId })
    else db

/-- The amount and the frontier, on the template. -/
def syncTemplateValues (orgId recurringId : Nat) (sync : SeriesSync) (db : Db) : Db :=
  updateTemplate db orgId recurringId (fun _ => true) (fun r =>
    { r with
      amount := sync.amount.getD r.amount
      nextDueDate := (sync.dateMove.map (·.nextDueDate)).getD r.nextDueDate
      lastSpentDate := (sync.dateMove.map (fun m => some m.lastSpentDate)).getD r.lastSpentDate })

/-- The amount, on the siblings still at the old one. -/
def syncAmount (orgId recurringId : Nat) (sync : SeriesSync) (db : Db) : Db :=
  match sync.amount with
  | none => db
  | some amount =>
    let targets := seriesSyncTargets db orgId recurringId (some sync.txType) sync.excludeId sync.amountAfter
    let ids := (targets.filter (fun t => some t.2.amount == sync.amountWas)).map Prod.fst
    updateRows db orgId (fun id _ => ids.contains id) (fun t => { t with amount })

/-- The guarded name, category and account: the siblings still at the old value. -/
def syncGuarded (orgId recurringId : Nat) (sync : SeriesSync) (db : Db) : Db :=
  let targets := seriesSyncTargets db orgId recurringId none none none
  let idsOf (test : Transaction → Bool) := (targets.filter (fun t => test t.2)).map Prod.fst
  let db :=
    match sync.description, sync.descriptionWas with
    | some description, some was =>
      updateRows db orgId (fun id _ => (idsOf (fun t => t.description == was)).contains id)
        (fun t => { t with description })
    | _, _ => db
  let db :=
    match sync.categoryId, sync.categoryWas with
    | some categoryId, some was =>
      updateRows db orgId
        (fun id _ => (idsOf (fun t => t.categoryId == was && t.type == sync.txType)).contains id)
        (fun t => { t with categoryId })
    | _, _ => db
  match sync.accountId, sync.accountWas with
  | some accountId, some was =>
    updateRows db orgId (fun id _ => (idsOf (fun t => t.accountId == was)).contains id)
      (fun t => { t with accountId })
  | _, _ => db

/-- The dates of a move. -/
def syncDates (orgId : Nat) (sync : SeriesSync) (db : Db) : Db :=
  match sync.dateMove with
  | none => db
  | some move =>
    { db with transactions := db.transactions.mapRows (fun id t =>
        match move.moves.find? (fun m => m.1 == id) with
        | some m => if t.orgId = orgId then { t with date := m.2.1, settledDate := m.2.2 } else t
        | none => t) }

/-- Sync an edited row to its template and pending siblings, or an edited template to
its pending rows. -/
def propagateFieldsToSeries (db : Db) (orgId recurringId : Nat) (sync : SeriesSync) : Db :=
  let db := syncDescription orgId recurringId sync db
  let db := syncCategory orgId recurringId sync db
  let db := syncAccount orgId recurringId sync db
  let db := syncTemplateValues orgId recurringId sync db
  let db := syncAmount orgId recurringId sync db
  let db := syncGuarded orgId recurringId sync db
  syncDates orgId sync db

/-- Refuse to move a series row onto or past where generation probes next. -/
def refuseRowDateAtFrontier (db : Db) (today : Int) (orgId recurringId : Nat) (newDate : Int) :
    Result Unit :=
  match findRecurring db orgId recurringId with
  | none => .ok ()
  | some r =>
    if hasRemainingOccurrences r then
      let bound :=
        if r.isActive then r.nextDueDate else max r.nextDueDate (frontierLowerBound db orgId today)
      refuse (bound ≤ newDate)
        (.conflict s!"The series' next occurrence is due {isoformat bound}, so this transaction's date must be before it. Choose an earlier date, or change the series' next due date first.")
    else .ok ()

/-! ## One row -/

inductive SeriesScope
  | this
  | future
  deriving DecidableEq, Repr

/-- A field left out is `none`. `settledDate` tells an omitted key from an explicit
null, which is `some none`. -/
structure TransactionUpdate where
  accountId : Option Nat := none
  categoryId : Option Nat := none
  description : Option String := none
  amount : Option Amount := none
  type : Option EntryType := none
  status : Option TransactionStatus := none
  settledDate : Option (Option Int) := none
  date : Option Int := none
  seriesScope : Option SeriesScope := none

/-- The request gives the row another date. -/
def movesDate (body : TransactionUpdate) (tx : Transaction) : Bool :=
  match body.date with
  | some d => d != tx.date
  | none => false

/-- What makes a row, or its date, read-only. -/
def refuseRowEdit (db : Db) (today : Int) (orgId : Nat) (tx : Transaction) (body : TransactionUpdate) :
    Result Unit := do
  refuse (tx.isManualAdjustment) (.validation "Manual balance adjustments cannot be edited")
  refuse (movesDate body tx ∧ tx.recurringId.isSome ∧ tx.reconciliationState.isReverted)
    (.validation s!"The date of a {tx.reconciliationState.value} transaction cannot be changed")
  match body.date, tx.recurringId with
  | some d, some recurringId =>
    if d ≠ tx.date ∧ body.seriesScope ≠ some .future then
      refuseRowDateAtFrontier db today orgId recurringId d
    else .ok ()
  | _, _ => .ok ()

/-- What a transfer leg may not become. -/
def refuseLegEdit (db : Db) (orgId : Nat) (partner : Transaction) (body : TransactionUpdate) :
    Result Unit := do
  refuse (body.type.isSome) (.validation "Type is immutable on transfer legs")
  match body.accountId with
  | none => .ok ()
  | some accountId => do
    let acct ← found (findAccount db orgId accountId) (.validation "Account not found")
    refuse (accountId = partner.accountId) (.validation "Account must differ from partner's account")
    refuse (some acct.currency ≠ currencyOf db partner.accountId)
      (.validation "New account currency must match partner's currency")

/-- A row that is no leg only has to land on an account of the org. -/
def validateNewAccount (db : Db) (orgId : Nat) (tx : Transaction) (body : TransactionUpdate) :
    Result Unit :=
  match body.accountId with
  | some accountId => if accountId ≠ tx.accountId then validateAccount db accountId orgId else .ok ()
  | none => .ok ()

/-- The template of a "this and future" edit, and the move it plans; `none` for any
other edit. -/
def planSeriesEdit (db : Db) (today : Int) (orgId id : Nat) (tx : Transaction)
    (body : TransactionUpdate) :
    Result (Option (RecurringTransaction × Option SeriesDateMove)) :=
  if body.seriesScope ≠ some .future then .ok none
  else do
    let recurringId ← found tx.recurringId
      (.validation "Only a recurring transaction can apply a change to its future occurrences")
    refuse (tx.status ≠ .pending)
      (.validation "Only a pending occurrence can apply a change to its future occurrences")
    refuse (tx.reconciliationState.isReverted)
      (.validation s!"A {tx.reconciliationState.value} occurrence cannot apply a change to its future occurrences")
    refuse (tx.linkedTransactionId.isSome)
      (.validation "A linked transaction cannot apply a change to its future occurrences")
    refuse (∃ t ∈ body.type, t.toType ≠ tx.type)
      (.validation "A type change applies to this occurrence only; send it without applying to future occurrences")
    let template ← found (findRecurring db orgId recurringId) (.runtime "NoResultFound")
    refuse (template.type ≠ tx.type)
      (.validation "This occurrence's type differs from its series, so its changes cannot apply to future occurrences")
    match body.date with
    | some d =>
      if d ≠ tx.date then do
        let move ← planSeriesDateMove db today orgId recurringId template id tx.date d tx.type
        .ok (some (template, some move))
      else .ok (some (template, none))
    | none => .ok (some (template, none))

/-- The category has to take the type, and on a leg both types. -/
def validateCategoryEdit (db : Db) (orgId : Nat) (tx : Transaction) (isLeg : Bool)
    (body : TransactionUpdate) : Result Unit := do
  let categoryId := body.categoryId.getD tx.categoryId
  let txType := (body.type.map EntryType.toType).getD tx.type
  if body.categoryId.isSome ∨ body.type.isSome then
    validateCategoryForType db categoryId orgId txType
  if isLeg ∧ body.categoryId.isSome then validateTransferCategory db categoryId orgId

/-- Lock accounts that are about to be written. -/
def lockAccounts (db : Db) (orgId : Nat) (ids : List Nat) : Result Unit :=
  refuse (∃ id ∈ ids, findAccount db orgId id = none) (.validation "Invalid account")

/-- A settled row has a settlement date; a pending one may have an expected one,
which an explicit null clears and an omitted key keeps. -/
def editedSettledDate (today : Int) (tx : Transaction) (body : TransactionUpdate) : Option Int :=
  match body.status.getD tx.status with
  | .settled =>
    match body.settledDate with
    | some (some d) => some d
    | _ => if tx.status = .settled then tx.settledDate else some today
  | .pending =>
    match body.settledDate with
    | some s => s
    | none => if body.status.isSome ∧ tx.status = .settled then none else tx.settledDate

/-- The row after the field updates. -/
def updatedRow (today : Int) (tx : Transaction) (body : TransactionUpdate) : Transaction :=
  { tx with
    description := body.description.getD tx.description
    amount := body.amount.getD tx.amount
    type := (body.type.map EntryType.toType).getD tx.type
    date := body.date.getD tx.date
    categoryId := body.categoryId.getD tx.categoryId
    accountId := body.accountId.getD tx.accountId
    status := body.status.getD tx.status
    settledDate := editedSettledDate today tx body }

/-- The row as it is written. On a "this and future" move an expected settlement the
request left alone keeps its distance from the row's date. -/
def editedRow (today : Int) (tx : Transaction) (body : TransactionUpdate) (moves : Bool) : Transaction :=
  let new := updatedRow today tx body
  match tx.settledDate with
  | none => new
  | some was =>
    let asked := body.settledDate.join
    if moves ∧ new.status = .pending ∧ (asked = none ∨ asked = some was) then
      { new with settledDate := some (was + (new.date - tx.date)) }
    else new

/-- A pending transfer's expected settlement moves both legs together. -/
def movesLegSettlement (tx new partner : Transaction) (body : TransactionUpdate) : Bool :=
  body.settledDate.isSome && new.status == .pending && partner.status == .pending &&
    new.settledDate != tx.settledDate

/-- The other leg of an edited transfer as it is written. -/
def mirroredLeg (tx new partner : Transaction) (body : TransactionUpdate) : Transaction :=
  { partner with
    categoryId := body.categoryId.getD partner.categoryId
    settledDate := if movesLegSettlement tx new partner body then new.settledDate else partner.settledDate
    amount := body.amount.getD partner.amount }

/-- What a pair must still be after an edit. The edited leg's account is the one it
was loaded with. -/
def recheckPair (db : Db) (tx new partner : Transaction) : Result Unit := do
  refuse (new.orgId ≠ partner.orgId) (.validation "Pair org mismatch after edit")
  refuse (new.accountId = partner.accountId) (.validation "Pair on same account after edit")
  refuse (new.amount ≠ partner.amount) (.validation "Pair amount mismatch after edit")
  refuse (¬ ((new.type = .expense ∧ partner.type = .income) ∨
      (new.type = .income ∧ partner.type = .expense)))
    (.validation "Pair must have opposite types after edit")
  refuse (currencyOf db tx.accountId ≠ currencyOf db partner.accountId)
    (.validation "Pair currencies differ after edit")

/-- What an edited series row hands on: the fields that changed, and amount and date
only on a "this and future" edit. -/
def syncOfEdit (id : Nat) (tx new : Transaction) (body : TransactionUpdate)
    (series : Option (RecurringTransaction × Option SeriesDateMove)) : SeriesSync where
  txType := new.type
  description := if body.description.isSome ∧ new.description ≠ tx.description then some new.description else none
  categoryId := if body.categoryId.isSome ∧ new.categoryId ≠ tx.categoryId then some new.categoryId else none
  accountId := if body.accountId.isSome ∧ new.accountId ≠ tx.accountId then some new.accountId else none
  amount := if series.isSome ∧ new.amount ≠ tx.amount then some new.amount else none
  amountWas := series.map (·.1.amount)
  amountAfter := some tx.date
  excludeId := some id
  dateMove := series.bind (·.2)

/-- Nothing to hand on. -/
def SeriesSync.isEmpty (sync : SeriesSync) : Bool :=
  sync.description.isNone && sync.categoryId.isNone && sync.accountId.isNone && sync.amount.isNone &&
    sync.dateMove.isNone

/-- Write an edit: the row, its partner if it is a leg, and both balances. `counted`
and `partnerCounted` say whose amount is inside the balance. -/
def writeEdit (db : Db) (orgId id : Nat) (tx new : Transaction) (counted : Bool)
    (partner : Option (Nat × Transaction × Transaction)) (partnerCounted : Bool) : Result Db := do
  let db ← doIf (tx.status = .settled && counted) (fun db => revertRow db orgId tx) db
  match partner with
  | none =>
    let db := editTransaction db id (fun _ => new)
    doIf (new.status = .settled && counted) (fun db => applyRow db orgId new) db
  | some (partnerId, leg, newLeg) =>
    let db ← doIf partnerCounted (fun db => revertRow db orgId leg) db
    let db := editTransaction (editTransaction db id (fun _ => new)) partnerId (fun _ => newLeg)
    let db ← doIf (new.status = .settled && counted) (fun db => applyRow db orgId new) db
    doIf partnerCounted (fun db => applyRow db orgId newLeg) db

def updateTransaction (db : Db) (today : Int) (orgId id : Nat) (body : TransactionUpdate) : Result Db := do
  let tx ← found (findTransaction db orgId id) (.notFound "Transaction")
  refuseRowEdit db today orgId tx body
  -- The raw link, which may be a reconcile match, and the partner only if it is mutual.
  let linked := linkedRow db orgId tx
  refuse (tx.linkedTransactionId.isSome ∧ linked = none)
    (.conflict "Transaction state changed; refresh and retry")
  let partner := linked.filter (fun p => isReciprocalPair (id, tx) (some p))
  let counted := contributesToCachedBalance (id, tx) linked
  match partner with
  | some p => refuseLegEdit db orgId p.2 body
  | none => validateNewAccount db orgId tx body
  let series ← planSeriesEdit db today orgId id tx body
  validateCategoryEdit db orgId tx partner.isSome body
  let new := editedRow today tx body (series.bind (·.2)).isSome
  lockAccounts db orgId
    ((if tx.status = .settled ∨ new.status = .settled then [tx.accountId, new.accountId] else []) ++
      (partner.toList.filter (fun p => body.amount.isSome && p.2.status == .settled)).map (·.2.accountId))
  let written ←
    match partner with
    | none => do
      refuse (∃ s ∈ new.settledDate, s < new.date) (.validation "settled_date must be on or after date")
      writeEdit db orgId id tx new counted none false
    | some p => do
      let newLeg := mirroredLeg tx new p.2 body
      refuse (movesLegSettlement tx new p.2 body ∧ ∃ s ∈ new.settledDate, s < p.2.date)
        (.validation "settled_date must be on or after the other leg's date")
      refuse (∃ s ∈ new.settledDate, s < new.date) (.validation "settled_date must be on or after date")
      let written ← writeEdit db orgId id tx new counted (some (p.1, p.2, newLeg))
        (body.amount.isSome && p.2.status = .settled && contributesToCachedBalance p (some (id, tx)))
      recheckPair db tx new newLeg
      .ok written
  match tx.recurringId with
  | none => .ok written
  | some recurringId =>
    let sync := syncOfEdit id tx new body series
    if sync.isEmpty then .ok written
    else .ok (propagateFieldsToSeries written orgId recurringId sync)

/-! ## Many rows -/

structure BulkUpdateRequest where
  ids : List Nat
  categoryId : Option Nat := none
  status : Option TransactionStatus := none
  accountId : Option Nat := none
  date : Option Int := none
  settledDate : Option Int := none

structure BulkUpdateResult where
  updated : Nat := 0
  skipped : List (Nat × String) := []
  notes : List (Nat × String) := []
  /-- Legs whose settlement date their partner's update has moved. -/
  movedWithPartner : List Nat := []

/-- `_reason`, for the errors the loop catches. -/
def ServiceError.reason : ServiceError → String
  | .notFound resource => s!"{resource} not found"
  | .validation detail => detail
  | .conflict detail => detail
  | .runtime detail => detail
  | .integrity => "IntegrityError"
  | .overflow => "OverflowError"

/-- A note, where there is one. -/
def noteIf (c : Prop) [Decidable c] (note : String) : List String := if c then [note] else []

/-- What a row takes of a bulk update, and a note for each field it does not. -/
structure BulkEdit where
  update : TransactionUpdate
  notes : List String

/-- Why a row does not take the requested date. -/
def dateNote (req : BulkUpdateRequest) (row : Transaction) (isTransfer settles : Bool) (date : Int) :
    Option String :=
  if isTransfer then some "date not applied to transfers"
  else if row.recurringId.isSome then some "date not applied to recurring occurrences"
  else
    match row.settledDate with
    | some was =>
      if ¬ (req.settledDate.isSome ∧ settles) ∧ settles ∧ row.status = .settled ∧ was < date then
        some s!"date not applied: settled on {isoformat was}; set the settlement date too"
      else none
    | none => none

/-- Why a row does not take the requested settlement date. `takesDate` says whether
it takes the requested date. -/
def settledDateNote (req : BulkUpdateRequest) (id : Nat) (row : Transaction) (partner : Option Row)
    (movedWithPartner : List Nat) (settles takesDate : Bool) (settledDate : Int) : Option String :=
  let staysPending := !settles && row.status == .pending
  let keepsDate := (req.date.isSome || staysPending) && !takesDate && decide (settledDate < row.date)
  let unchanged := s!"settlement date not applied: before the unchanged date {isoformat row.date}"
  match partner with
  | some p =>
    if !staysPending then some "settlement date not applied to transfers"
    else if p.2.status ≠ .pending then
      some "settlement date not applied: the other leg of this transfer is settled"
    else if movedWithPartner.contains id then
      some "settlement date already moved with the other leg of this transfer"
    else if keepsDate then some unchanged
    else if settledDate < p.2.date then
      some s!"settlement date not applied: before the other leg's date {isoformat p.2.date}"
    else none
  | none =>
    if !settles && !staysPending then
      some "settlement date not applied to rows being set to pending"
    else if keepsDate then some unchanged
    else none

/-- Split a request into what the row takes and what it does not. -/
def bulkEditOf (req : BulkUpdateRequest) (id : Nat) (row : Transaction) (partner : Option Row)
    (movedWithPartner : List Nat) : BulkEdit :=
  let isTransfer := partner.isSome
  let status := if isTransfer then none else req.status
  let settles := status.getD row.status == .settled
  let dateNote := req.date.bind (dateNote req row isTransfer settles)
  let date := if dateNote.isNone then req.date else none
  let settledNote := req.settledDate.bind
    (settledDateNote req id row partner movedWithPartner settles date.isSome)
  let settledDate := if settledNote.isNone then req.settledDate else none
  -- A row that stays pending keeps the distance to its expected settlement.
  let kept :=
    match date, row.settledDate with
    | some d, some was =>
      if settledDate.isNone ∧ ¬ settles ∧ row.status = .pending then some (was + (d - row.date)) else none
    | _, _ => none
  { update :=
      { categoryId := req.categoryId, status, date
        accountId := if isTransfer then none else req.accountId
        settledDate := (settledDate.or kept).map some }
    notes := noteIf (req.status.isSome ∧ isTransfer) "status not applied to transfers" ++
      noteIf (req.accountId.isSome ∧ isTransfer) "account not applied to transfers" ++
      dateNote.toList ++ settledNote.toList }

def TransactionUpdate.isEmpty (body : TransactionUpdate) : Bool :=
  body.categoryId.isNone && body.status.isNone && body.accountId.isNone && body.date.isNone &&
    body.settledDate.isNone

/-- One row of a bulk update. A row that refuses is skipped, with the reason. The
update never asks for "this and future", so no error it raises escapes the loop. -/
def bulkUpdateOne (today : Int) (orgId : Nat) (req : BulkUpdateRequest) (acc : Db × BulkUpdateResult)
    (id : Nat) : Db × BulkUpdateResult :=
  let (db, result) := acc
  let skip (why : String) : Db × BulkUpdateResult :=
    (db, { result with skipped := result.skipped ++ [(id, why)] })
  match findTransaction db orgId id with
  | none => skip "Transaction not found"
  | some row =>
    if row.isManualAdjustment then skip "Manual balance adjustments cannot be edited"
    else
      let partner := (linkedRow db orgId row).filter (fun p => isReciprocalPair (id, row) (some p))
      let edit := bulkEditOf req id row partner result.movedWithPartner
      if edit.update.date.any (fun d => decide (today < d)) && edit.update.settledDate.isNone &&
          edit.update.status == some .settled && row.status != .settled then
        skip ("; ".intercalate
          ("date is after today's settlement; set the settlement date too" :: edit.notes))
      else if edit.update.isEmpty then
        skip (if edit.notes = [] then "No applicable changes for this row" else "; ".intercalate edit.notes)
      else
        match updateTransaction db today orgId id edit.update with
        | .error e => skip ("; ".intercalate (e.reason :: edit.notes))
        | .ok db =>
          (db, { result with
            updated := result.updated + 1
            notes := if edit.notes = [] then result.notes
              else result.notes ++ [(id, "; ".intercalate edit.notes)]
            movedWithPartner := if edit.update.settledDate.isSome
              then result.movedWithPartner ++ partner.toList.map Prod.fst
              else result.movedWithPartner })

/-- Each row commits on its own, so a row sees what the rows before it did. -/
def bulkUpdateTransactions (db : Db) (today : Int) (orgId : Nat) (req : BulkUpdateRequest) :
    Db × BulkUpdateResult :=
  req.ids.eraseDups.foldl (bulkUpdateOne today orgId req) (db, {})

end BetterDecision
