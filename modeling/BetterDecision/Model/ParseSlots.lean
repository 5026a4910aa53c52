import BetterDecision.Lib.Runs
import BetterDecision.Lib.Table
import BetterDecision.Model.Db

/-!
# Parse slots

`OFXParseExecutor.slot` (`import_ofx_service.py`): a call reserves one of its organization's
slots under the lock, and then waits for a permit of the semaphore. What it took it gives
back in its `finally`. The code between two awaits is one step, and the steps of different
calls come in any order.

A permit that was handed to a waiter who never gets to run again goes back to the semaphore:
that is `asyncio`'s own care, and `wait_for`'s.
-/

namespace BetterDecision

/-- What the executor was made with. -/
structure ParseExecutor where
  maxConcurrent : Int
  maxPerOrg : Int
  queueWaitS : ℚ

/-- The permits the semaphore is made with. -/
def ParseExecutor.permits (x : ParseExecutor) : Int := max 1 x.maxConcurrent

/-- How far a call of `slot` is. -/
inductive SlotPhase
  /-- At the lock. -/
  | entering (orgId : Nat)
  /-- In the semaphore's queue. -/
  | waiting (orgId : Nat)
  /-- A permit was handed to it, and it has not run since. -/
  | handed (orgId : Nat)
  /-- At the `yield`. -/
  | body (orgId : Nat)
  | ended (orgId : Nat)

/-- The organization whose slot a call has reserved. -/
def SlotPhase.reservation : SlotPhase → Option Nat
  | .waiting orgId | .handed orgId | .body orgId => some orgId
  | .entering _ | .ended _ => none

/-- Whether a call has a permit. -/
def SlotPhase.hasPermit : SlotPhase → Bool
  | .handed _ | .body _ => true
  | _ => false

def SlotPhase.isBody : SlotPhase → Bool
  | .body _ => true
  | _ => false

structure SlotWorld where
  /-- The value of the semaphore. -/
  free : Int
  orgCounts : Nat → Option Int := fun _ => none
  calls : Table SlotPhase := .empty

/-- `_ensure`, on a loop it has not seen. -/
def SlotWorld.ensured (x : ParseExecutor) : SlotWorld := { free := x.permits }

/-- How many bodies run. -/
def SlotWorld.bodies (w : SlotWorld) : Nat := (w.calls.select fun _ p => p.isBody).length

/-- How many slots an organization has reserved. -/
def SlotWorld.reservations (w : SlotWorld) (orgId : Nat) : Nat :=
  (w.calls.select fun _ p => p.reservation == some orgId).length

inductive SlotEvent
  | call (orgId : Nat)
  /-- The lock is free, and the call runs on to its next await. -/
  | reserve (call : Nat)
  /-- The semaphore wakes a waiter. -/
  | hand (call : Nat)
  | resume (call : Nat)
  /-- The queue wait is over. -/
  | timeout (call : Nat)
  | cancel (call : Nat)
  /-- The body is done, or raised. -/
  | leave (call : Nat)

def SlotWorld.goto (w : SlotWorld) (id : Nat) (phase : SlotPhase) : SlotWorld :=
  { w with calls := w.calls.modify id (fun _ => phase) }

/-- The count of an organization, and one more. -/
def countIn (counts : Nat → Option Int) (orgId : Nat) : Nat → Option Int :=
  Function.update counts orgId (some ((counts orgId).getD 0 + 1))

/-- One less; the entry goes with the last one. -/
def countOut (counts : Nat → Option Int) (orgId : Nat) : Nat → Option Int :=
  let remaining := (counts orgId).getD 0 - 1
  Function.update counts orgId (if remaining ≤ 0 then none else some remaining)

/-- The `finally` of `slot`. -/
def SlotWorld.finish (w : SlotWorld) (id orgId : Nat) (acquired : Bool) : SlotWorld :=
  { (w.goto id (.ended orgId)) with
    free := if acquired then w.free + 1 else w.free
    orgCounts := countOut w.orgCounts orgId }

/-- The wait for a permit failed: one that was handed over goes back. -/
def SlotWorld.giveUp (w : SlotWorld) (id orgId : Nat) (handed : Bool) : SlotWorld :=
  { w with free := if handed then w.free + 1 else w.free }.finish id orgId false

/-- From the lock on. Where no call may wait, the semaphore is locked iff it has no permit left. -/
def SlotWorld.reserve (x : ParseExecutor) (w : SlotWorld) (id orgId : Nat) : SlotWorld :=
  if 0 < x.maxPerOrg ∧ x.maxPerOrg ≤ (w.orgCounts orgId).getD 0 then
    -- per_org
    w.goto id (.ended orgId)
  else
    let w := { w with orgCounts := countIn w.orgCounts orgId }
    if 0 < x.queueWaitS then w.goto id (.waiting orgId)
    else if w.free = 0 then
      -- global_busy
      w.finish id orgId false
    else { (w.goto id (.body orgId)) with free := w.free - 1 }

/-- One step. An event whose call is elsewhere is refused. -/
def slotStep (x : ParseExecutor) (w : SlotWorld) : SlotEvent → Result SlotWorld
  | .call orgId => .ok { w with calls := w.calls.insert (.entering orgId) }
  | .reserve id => do
    match ← found (w.calls.get? id) (.runtime "no call") with
    | .entering orgId => .ok (w.reserve x id orgId)
    | _ => .error (.runtime "past the lock")
  | .hand id => do
    match ← found (w.calls.get? id) (.runtime "no call") with
    | .waiting orgId =>
      refuse (w.free ≤ 0) (.runtime "no permit")
      .ok { (w.goto id (.handed orgId)) with free := w.free - 1 }
    | _ => .error (.runtime "not in the queue")
  | .resume id => do
    match ← found (w.calls.get? id) (.runtime "no call") with
    | .handed orgId => .ok (w.goto id (.body orgId))
    | _ => .error (.runtime "nothing was handed to it")
  | .timeout id => do
    match ← found (w.calls.get? id) (.runtime "no call") with
    | .waiting orgId => .ok (w.giveUp id orgId false)
    | .handed orgId => .ok (w.giveUp id orgId true)
    | _ => .error (.runtime "not in the queue")
  | .cancel id => do
    match ← found (w.calls.get? id) (.runtime "no call") with
    | .entering orgId => .ok (w.goto id (.ended orgId))
    | .waiting orgId => .ok (w.giveUp id orgId false)
    | .handed orgId => .ok (w.giveUp id orgId true)
    | .body orgId => .ok (w.finish id orgId true)
    | .ended _ => .error (.runtime "it is over")
  | .leave id => do
    match ← found (w.calls.get? id) (.runtime "no call") with
    | .body orgId => .ok (w.finish id orgId true)
    | _ => .error (.runtime "not in the body")

end BetterDecision
