import BetterDecision.Lib.Runs
import BetterDecision.Model.Ledger

/-!
# Batch writes under an idempotency key

`create_batch` writes typed rows, each in a savepoint of its own.
`create_batch_with_key` does so once per (org, user, key) and lifetime. This is one
such key, and any number of requests that carry it, cut where another transaction
can come in between.

A request's snapshot is fixed by the authentication read (`begin`). It reads the
clock and the key (`look`), frees an expired key (`delete`), claims it (`insert`),
writes the rows and the response (`write`), and the router commits (`commit`). The
unique index makes the claim wait for another one that is not committed; a claim
that finds a committed row is rolled back, and the key read again (`relook`).
-/

namespace BetterDecision

/-! ## The rows -/

structure BatchTransactionRow where
  rowNumber : Nat
  transaction : TransactionCreate

structure BatchTransactionsRequest where
  rows : List BatchTransactionRow
  /-- `min_length`, `max_length`. -/
  size : 1 ≤ rows.length ∧ rows.length ≤ 500
  /-- `_row_numbers_must_be_unique`. -/
  unique : (rows.map (·.rowNumber)).Nodup

structure BatchRowResult where
  rowNumber : Nat
  transactionId : Nat
  deriving DecidableEq, Repr

structure BatchRowError where
  rowNumber : Nat
  error : String
  deriving DecidableEq, Repr

structure BatchTransactionsResponse where
  importedCount : Nat
  errorCount : Nat
  results : List BatchRowResult
  errors : List BatchRowError
  replayed : Bool := false
  deriving DecidableEq, Repr

/-- `_error_message`: a domain error as its text, anything else as one text. -/
def errorMessage : ServiceError → String
  | .validation detail => detail
  | .conflict detail => detail
  | .notFound resource => s!"{resource} not found"
  | _ => "Internal error processing row"

/-- The database in the batch's transaction, and the two lists of the response. -/
structure BatchProgress where
  db : Db
  results : List BatchRowResult := []
  errors : List BatchRowError := []

def BatchProgress.fail (s : BatchProgress) (row : BatchTransactionRow) (error : ServiceError) : BatchProgress :=
  { s with errors := s.errors ++ [{ rowNumber := row.rowNumber, error := errorMessage error }] }

/-- One row in its savepoint. `failing` are the rows an unexpected exception hits. -/
def batchRow (orgId : Nat) (failing : List Nat) (s : BatchProgress) (row : BatchTransactionRow) : BatchProgress :=
  if row.rowNumber ∈ failing then s.fail row (.runtime "unexpected")
  else
    match createTransactionNoCommit s.db orgId row.transaction false false with
    | .ok (db, tx) =>
      { s with db, results := s.results ++ [{ rowNumber := row.rowNumber, transactionId := tx.1 }] }
    | .error error => s.fail row error

/-- The rows. Learning rules from them, best effort and after them, is left out: it
writes no table of `Db`. -/
def createBatch (db : Db) (orgId : Nat) (body : BatchTransactionsRequest) (failing : List Nat) :
    Db × BatchTransactionsResponse :=
  let s := body.rows.foldl (batchRow orgId failing) { db }
  (s.db, { importedCount := s.results.length, errorCount := s.errors.length
           results := s.results, errors := s.errors })

/-! ## The key -/

def keyTtlHours : Int := 24

/-- In seconds. -/
def keyTtl : Int := keyTtlHours * 3600

/-- A row of `transaction_batch_keys`, less the key itself. `η` is the type of
fingerprints. -/
structure TransactionBatchKey (η : Type) where
  id : Nat
  requestHash : η
  createdAt : Int
  /-- Unset only inside the claiming transaction. -/
  response : Option BatchTransactionsResponse := none

/-- The lifetime of the key is over. -/
def TransactionBatchKey.Expired {η : Type} (key : TransactionBatchKey η) (now : Int) : Prop :=
  key.createdAt ≤ now - keyTtl

instance {η : Type} (key : TransactionBatchKey η) (now : Int) : Decidable (key.Expired now) :=
  inferInstanceAs (Decidable (key.createdAt ≤ now - keyTtl))

def differentBatch : ServiceError :=
  .conflict "This Idempotency-Key was already used for a different batch; send a new key for new rows"

/-- `_replay`. A row without a response does not validate. -/
def replay {η : Type} [DecidableEq η] (row : TransactionBatchKey η) (requestHash : η) :
    Result BatchTransactionsResponse := do
  refuse (row.requestHash ≠ requestHash) differentBatch
  let response ← found row.response (.runtime "no response")
  .ok { response with replayed := true }

/-- How far a request is. A `deleted` row is one its transaction has deleted. -/
inductive BatchPhase (η : Type)
  | started
  /-- The row it found has expired and is to be deleted. -/
  | expired
  | claiming (deleted : Option (TransactionBatchKey η))
  /-- The claim is in, under this id. -/
  | claimed (deleted : Option (TransactionBatchKey η)) (id : Nat)
  /-- Rows and response are in. -/
  | written (deleted : Option (TransactionBatchKey η)) (claim : TransactionBatchKey η) (db : Db)
      (response : BatchTransactionsResponse)
  /-- The claim was a duplicate. -/
  | rolledBack
  | answered (outcome : Result BatchTransactionsResponse)

/-- The row its transaction has deleted. -/
def BatchPhase.deleted {η : Type} : BatchPhase η → Option (TransactionBatchKey η)
  | .claiming deleted => deleted
  | .claimed deleted _ => deleted
  | .written deleted _ _ _ => deleted
  | _ => none

/-- Its transaction has the claim in, not committed. -/
def BatchPhase.HasClaim {η : Type} : BatchPhase η → Prop
  | .claimed _ _ => True
  | .written _ _ _ _ => True
  | _ => False

instance {η : Type} : DecidablePred (BatchPhase.HasClaim (η := η))
  | .started => .isFalse id
  | .expired => .isFalse id
  | .claiming _ => .isFalse id
  | .claimed _ _ => .isTrue trivial
  | .written _ _ _ _ => .isTrue trivial
  | .rolledBack => .isFalse id
  | .answered _ => .isFalse id

structure BatchRequest (η : Type) where
  body : BatchTransactionsRequest
  /-- The key row in the transaction's snapshot. -/
  snapshot : Option (TransactionBatchKey η)
  now : Int := 0
  existing : Option (TransactionBatchKey η) := none
  phase : BatchPhase η := .started

/-- History: one batch that was committed. -/
structure AppliedBatch (η : Type) where
  body : BatchTransactionsRequest
  key : TransactionBatchKey η
  response : BatchTransactionsResponse
  /-- The id of the key row it replaced. -/
  took : Option Nat

structure BatchWorld (η : Type) where
  clock : Int
  db : Db
  /-- The committed key row. -/
  key : Option (TransactionBatchKey η) := none
  /-- The id the next claim gets. A claim rolled back keeps its id. -/
  nextId : Nat := 1
  requests : Table (BatchRequest η) := .empty
  /-- History, newest first. -/
  applied : List (AppliedBatch η) := []

inductive BatchEvent
  | begin (body : BatchTransactionsRequest)
  | look (request : Nat)
  | delete (request : Nat)
  | insert (request : Nat)
  | write (request : Nat) (failing : List Nat)
  | commit (request : Nat)
  | relook (request : Nat)
  /-- The request fails or the process dies: its transaction is rolled back. -/
  | crash (request : Nat)
  | tick (seconds : Nat)

section Steps

variable {η : Type} [DecidableEq η]

def BatchWorld.put (w : BatchWorld η) (id : Nat) (r : BatchRequest η) : BatchWorld η :=
  { w with requests := w.requests.modify id (fun _ => r) }

/-- Another transaction has a claim in, or the row deleted: an insert waits. -/
def BatchWorld.KeyHeld (w : BatchWorld η) (id : Nat) : Prop :=
  ∃ q ∈ w.requests.rows, q.1 ≠ id ∧ (q.2.phase.HasClaim ∨ q.2.phase.deleted.isSome)

instance (w : BatchWorld η) (id : Nat) : Decidable (w.KeyHeld id) :=
  inferInstanceAs (Decidable (∃ q ∈ w.requests.rows, q.1 ≠ id ∧ (q.2.phase.HasClaim ∨ q.2.phase.deleted.isSome)))

/-- Another transaction has the row deleted: a delete of it waits. -/
def BatchWorld.RowHeld (w : BatchWorld η) (id keyId : Nat) : Prop :=
  ∃ q ∈ w.requests.rows, q.1 ≠ id ∧ q.2.phase.deleted.map (·.id) = some keyId

instance (w : BatchWorld η) (id keyId : Nat) : Decidable (w.RowHeld id keyId) :=
  inferInstanceAs (Decidable (∃ q ∈ w.requests.rows, q.1 ≠ id ∧ q.2.phase.deleted.map (·.id) = some keyId))

/-- The clock is read, and the key in the snapshot. -/
def lookAt (requestHash : BatchTransactionsRequest → η) (now : Int) (r : BatchRequest η) : BatchRequest η :=
  match r.snapshot with
  | none => { r with now, phase := .claiming none }
  | some existing =>
    if existing.Expired now then { r with now, existing := some existing, phase := .expired }
    else { r with now, existing := some existing, phase := .answered (replay existing (requestHash r.body)) }

/-- The committed row, if the delete by id hits it. -/
def BatchWorld.deleteKey (w : BatchWorld η) (id : Option Nat) : Option (TransactionBatchKey η) :=
  w.key.filter (fun key => some key.id = id)

/-- After a duplicate: whatever a fresh transaction sees. -/
def relookAt (requestHash : BatchTransactionsRequest → η) (key : Option (TransactionBatchKey η))
    (r : BatchRequest η) : BatchRequest η :=
  match key with
  | none => { r with existing := none, phase := .answered (.error .integrity) }
  | some existing =>
    { r with existing := some existing, phase := .answered (replay existing (requestHash r.body)) }

/-- One step. An event whose request is elsewhere, or has to wait, is refused. -/
def batchStep (requestHash : BatchTransactionsRequest → η) (orgId : Nat) (w : BatchWorld η) :
    BatchEvent → Result (BatchWorld η)
  | .begin body => .ok { w with requests := w.requests.insert { body, snapshot := w.key } }
  | .tick seconds => .ok { w with clock := w.clock + seconds }
  | .look id => do
    let r ← found (w.requests.get? id) (.runtime "no request")
    match r.phase with
    | .started => .ok (w.put id (lookAt requestHash w.clock r))
    | _ => .error (.runtime "not started")
  | .delete id => do
    let r ← found (w.requests.get? id) (.runtime "no request")
    match r.phase with
    | .expired => do
      let existing ← found r.existing (.runtime "nothing to delete")
      refuse (w.RowHeld id existing.id) (.runtime "lock wait")
      .ok (w.put id { r with phase := .claiming (w.deleteKey (some existing.id)) })
    | _ => .error (.runtime "not expired")
  | .insert id => do
    let r ← found (w.requests.get? id) (.runtime "no request")
    match r.phase with
    | .claiming deleted => do
      refuse (w.KeyHeld id) (.runtime "lock wait")
      -- the row this transaction has deleted is no duplicate
      if w.key.isSome ∧ deleted.isNone then .ok { (w.put id { r with phase := .rolledBack }) with nextId := w.nextId + 1 }
      else .ok { (w.put id { r with phase := .claimed deleted w.nextId }) with nextId := w.nextId + 1 }
    | _ => .error (.runtime "not claiming")
  | .write id failing => do
    let r ← found (w.requests.get? id) (.runtime "no request")
    match r.phase with
    | .claimed deleted claimId =>
      let (db, response) := createBatch w.db orgId r.body failing
      let claim : TransactionBatchKey η :=
        { id := claimId, requestHash := requestHash r.body, createdAt := r.now, response := some response }
      .ok (w.put id { r with phase := .written deleted claim db response })
    | _ => .error (.runtime "not claimed")
  | .commit id => do
    let r ← found (w.requests.get? id) (.runtime "no request")
    match r.phase with
    | .written deleted claim db response =>
      .ok { (w.put id { r with phase := .answered (.ok response) }) with
        db, key := some claim
        applied := { body := r.body, key := claim, response, took := deleted.map (·.id) } :: w.applied }
    | _ => .error (.runtime "not written")
  | .relook id => do
    let r ← found (w.requests.get? id) (.runtime "no request")
    match r.phase with
    | .rolledBack => .ok (w.put id (relookAt requestHash w.key r))
    | _ => .error (.runtime "not rolled back")
  | .crash id => do
    let r ← found (w.requests.get? id) (.runtime "no request")
    match r.phase with
    | .answered _ => .error (.runtime "already answered")
    | _ => .ok (w.put id { r with phase := .answered (.error (.runtime "crashed")) })

end Steps

end BetterDecision
