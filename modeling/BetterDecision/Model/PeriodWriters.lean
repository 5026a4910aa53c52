import BetterDecision.Model.Billing

/-!
# Concurrent period writers

Any number of `close_period` and `ensure_future_periods` calls on one org, cut
where another transaction can come in between.

A close resolves the open row (`close`), takes its lock and reads the roster
(`lock`), looks for a row to revive (`lookup`), and writes and commits
(`commit`). The lock is on the row it resolved: a second closer of that row waits
until the commit, and then finds the row closed and writes nothing. A commit that
collides with an insert is rolled back, gives the lock up, and goes round once
more.

A planner reads the roster (`plan`) and takes no lock. Later it inserts all its
stubs or none (`insert`).
-/

namespace BetterDecision

/-- Where a call is. -/
inductive Session
  /-- A closer waiting for the lock on the row it resolved. -/
  | waiting (currentId : Nat) (requested : Int) (retried : Bool)
  /-- Lock taken, date resolved against the roster as it then stood. -/
  | locked (currentId : Nat) (current : BillingPeriod) (requested resolved : Int) (retried : Bool)
  /-- Revive lookup done. -/
  | ready (currentId : Nat) (current : BillingPeriod) (requested resolved : Int) (retried : Bool)
      (existing : Option Nat)
  /-- A planner that has read the roster. -/
  | planned (stubs : List (Int × Int))
  /-- Returned or raised. -/
  | done

/-- The row a session holds the lock of. -/
def Session.lockedRow : Session → Option Nat
  | .locked currentId _ _ _ _ => some currentId
  | .ready currentId _ _ _ _ _ => some currentId
  | _ => none

structure Writers where
  db : Db
  sessions : Table Session := .empty

inductive WriterEvent
  | close (closeDate : Option Int) (today : Int)
  | lock (session : Nat)
  | lookup (session : Nat)
  | commit (session : Nat)
  | plan (today : Int) (count : Nat)
  | insert (session : Nat)

def Writers.begin (w : Writers) (db : Db) (s : Session) : Writers :=
  { db, sessions := w.sessions.insert s }

def Writers.goto (w : Writers) (id : Nat) (s : Session) : Writers :=
  { w with sessions := w.sessions.modify id (fun _ => s) }

/-- Another session holds the lock on `row`. -/
def Writers.Blocked (w : Writers) (row : Nat) : Prop :=
  ∃ s ∈ w.sessions.rows, s.2.lockedRow = some row

instance (w : Writers) (row : Nat) : Decidable (w.Blocked row) :=
  inferInstanceAs (Decidable (∃ s ∈ w.sessions.rows, s.2.lockedRow = some row))

/-- The lock step: a closed row belongs to a racer, and nothing is left to do; otherwise
the date is checked against the locked row (the first time) and resolved. -/
def lockPeriod (db : Db) (orgId currentId : Nat) (requested : Int) (retried : Bool) : Session :=
  match db.billingPeriods.get? currentId with
  | none => .done
  | some current =>
    if current.endDate.isSome then .done
    else if retried = false ∧ requested < current.startDate then .done
    else .locked currentId current requested (resolveCloseDate db orgId current requested) retried

/-- One step of the writers. An event whose session is elsewhere is refused. -/
def writerStep (orgId : Nat) (w : Writers) : WriterEvent → Result Writers
  | .close closeDate today =>
    let (db, currentId, _) := getCurrentPeriod w.db orgId today
    let requested := requestedCloseDate closeDate today
    .ok (w.begin db (if today < requested then .done else .waiting currentId requested false))
  | .lock id =>
    match w.sessions.get? id with
    | some (.waiting currentId requested retried) => do
      refuse (w.Blocked currentId) (.runtime "lock wait")
      .ok (w.goto id (lockPeriod w.db orgId currentId requested retried))
    | _ => .error (.runtime "not waiting")
  | .lookup id =>
    match w.sessions.get? id with
    | some (.locked currentId current requested resolved retried) =>
      .ok (w.goto id (.ready currentId current requested resolved retried
        ((periodAt w.db orgId (resolved + 1)).map Prod.fst)))
    | _ => .error (.runtime "not locked")
  | .commit id =>
    match w.sessions.get? id with
    | some (.ready currentId current requested resolved retried existing) =>
      match commitClose w.db orgId currentId current resolved existing with
      | .ok (db, _) => .ok { (w.goto id .done) with db }
      -- rolled back: once more from the lock, or the second collision propagates
      | .error _ => .ok (w.goto id (if retried then .done else .waiting currentId requested true))
    | _ => .error (.runtime "not ready")
  | .plan today count =>
    let (db, _, current) := getCurrentPeriod w.db orgId today
    .ok (w.begin db (.planned (planFuturePeriods db orgId current.startDate count)))
  | .insert id =>
    match w.sessions.get? id with
    | some (.planned stubs) =>
      match insertStubs w.db orgId stubs with
      | .ok db => .ok { (w.goto id .done) with db }
      | .error _ => .ok (w.goto id .done)
    | _ => .error (.runtime "not planned")

end BetterDecision
