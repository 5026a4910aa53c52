import BetterDecision.Lib.Calendar
import BetterDecision.Lib.Keyed
import BetterDecision.Lib.Runs
import BetterDecision.Lib.Table

/-!
# Platform AI spend

`platform_reserve`: a dispatch is admitted against two meters of its org and one
global monthly row, and settled for what it really used. Any number of calls run at
once, so a reserve is cut at its commits: the entitlements are read (`resolve`), the
counter rows are made and committed (`upsert`), and the three guarded increments are
one transaction (`increment`). A settle is one transaction.

The reservations of `PlatformWorld` are history: one for every reserve that
committed, with what it was settled for. The calls read of it only the handle.
-/

namespace BetterDecision

open Calendar

inductive PlatformMeter
  | tokens
  | micros
  deriving DecidableEq, Repr

def PlatformMeter.value : PlatformMeter → String
  | .tokens => "platform_ai.tokens"
  | .micros => "platform_ai.micros"

inductive UsagePeriod
  | day
  | month
  deriving DecidableEq, Repr

/-- A resolved limit. No limit is never read as unlimited here. -/
structure UsageLimit where
  period : UsagePeriod
  limit : Option Int

/-- `ent.limits` of the two platform meters. -/
structure Entitlements where
  tokens : UsageLimit
  micros : UsageLimit

/-- Start of the UTC day or month holding `today`. -/
def periodStart (period : UsagePeriod) (today : Int) : Int :=
  match period with
  | .day => today
  | .month => onMonth (monthOf today) 1

/-- The next period boundary after `today`. -/
def resetsAt (period : UsagePeriod) (today : Int) : Int :=
  let start := periodStart period today
  match period with
  | .day => start + 1
  | .month => onMonth (monthOf (start + 32)) 1

inductive ReserveError
  /-- `PlatformAIUnavailable`. -/
  | unavailable (detail : String)
  /-- `PlanLimitReached`. A limit of 0 never resets. -/
  | planLimitReached (meter : PlatformMeter) (limit : Int) (period : UsagePeriod) (resetsAt : Option Int)
  deriving DecidableEq, Repr

/-- Primary key of `usage_counters`. -/
structure CounterKey where
  orgId : Nat
  meter : PlatformMeter
  period : UsagePeriod
  periodStart : Int
  deriving DecidableEq, Repr

structure UsageCounter where
  key : CounterKey
  value : Int
  deriving DecidableEq, Repr

structure PlatformAISpend where
  periodStart : Int
  micros : Int
  deriving DecidableEq, Repr

structure PlatformDb where
  counters : List UsageCounter := []
  spend : List PlatformAISpend := []
  deriving DecidableEq

/-- The value under a key; a row that is not there holds nothing. -/
def counterValue (db : PlatformDb) (k : CounterKey) : Int :=
  ((rowAt UsageCounter.key db.counters k).map (·.value)).getD 0

def spendValue (db : PlatformDb) (start : Int) : Int :=
  ((rowAt PlatformAISpend.periodStart db.spend start).map (·.micros)).getD 0

/-! ## Rows -/

/-- INSERT of a zero row; on a duplicate key, nothing. -/
def upsertCounter (db : PlatformDb) (k : CounterKey) : PlatformDb :=
  match rowAt UsageCounter.key db.counters k with
  | some _ => db
  | none => { db with counters := db.counters ++ [{ key := k, value := 0 }] }

def upsertSpend (db : PlatformDb) (start : Int) : PlatformDb :=
  match rowAt PlatformAISpend.periodStart db.spend start with
  | some _ => db
  | none => { db with spend := db.spend ++ [{ periodStart := start, micros := 0 }] }

def UsageCounter.add (n : Int) (c : UsageCounter) : UsageCounter := { c with value := c.value + n }

def PlatformAISpend.add (n : Int) (s : PlatformAISpend) : PlatformAISpend := { s with micros := s.micros + n }

/-- UPDATE of a counter, unconditional. -/
def addToCounter (db : PlatformDb) (k : CounterKey) (n : Int) : PlatformDb :=
  { db with counters := rewriteAt UsageCounter.key db.counters k (.add n) }

def addToSpend (db : PlatformDb) (start n : Int) : PlatformDb :=
  { db with spend := rewriteAt PlatformAISpend.periodStart db.spend start (.add n) }

/-- UPDATE of a counter where the sum stays within the limit, if a row was hit. -/
def incrementCounter (db : PlatformDb) (k : CounterKey) (n limit : Int) : Option PlatformDb :=
  match rowAt UsageCounter.key db.counters k with
  | some c => if c.value + n ≤ limit then some (addToCounter db k n) else none
  | none => none

def incrementSpend (db : PlatformDb) (start n ceiling : Int) : Option PlatformDb :=
  match rowAt PlatformAISpend.periodStart db.spend start with
  | some s => if s.micros + n ≤ ceiling then some (addToSpend db start n) else none
  | none => none

/-! ## Reserving -/

/-- A reserve under way: what it was asked for, and the limits and keys it resolved. -/
structure ReserveRequest where
  orgId : Nat
  tokens : Int
  micros : Int
  ceilingMicros : Int
  today : Int
  tokensPeriod : UsagePeriod
  tokensLimit : Int
  microsPeriod : UsagePeriod
  microsLimit : Int
  deriving DecidableEq

def ReserveRequest.tokensKey (r : ReserveRequest) : CounterKey :=
  { orgId := r.orgId, meter := .tokens, period := r.tokensPeriod, periodStart := periodStart r.tokensPeriod r.today }

def ReserveRequest.microsKey (r : ReserveRequest) : CounterKey :=
  { orgId := r.orgId, meter := .micros, period := r.microsPeriod, periodStart := periodStart r.microsPeriod r.today }

def ReserveRequest.month (r : ReserveRequest) : Int := periodStart .month r.today

/-- `_resolve`: entitlements that cannot be read (`none`) or set no limit fail closed. -/
def resolveReserve (orgId : Nat) (tokens micros ceilingMicros today : Int) (ent : Option Entitlements) :
    Except ReserveError ReserveRequest := do
  let ent ← found ent (.unavailable "entitlements unavailable")
  match ent.tokens.limit, ent.micros.limit with
  | some tokensLimit, some microsLimit =>
    .ok { orgId, tokens, micros, ceilingMicros, today
          tokensPeriod := ent.tokens.period, tokensLimit
          microsPeriod := ent.micros.period, microsLimit }
  | _, _ => .error (.unavailable "platform meter has no limit")

/-- The first transaction: the three rows exist. -/
def upsertRows (db : PlatformDb) (r : ReserveRequest) : PlatformDb :=
  upsertSpend (upsertCounter (upsertCounter db r.tokensKey) r.microsKey) r.month

def planLimit (meter : PlatformMeter) (limit : Int) (period : UsagePeriod) (today : Int) : ReserveError :=
  .planLimitReached meter limit period (if limit = 0 then none else some (resetsAt period today))

/-- The second transaction: all three increments, or a refusal and a rollback. -/
def incrementRows (db : PlatformDb) (r : ReserveRequest) : Except ReserveError PlatformDb := do
  let db ← found (incrementCounter db r.tokensKey r.tokens r.tokensLimit)
    (planLimit .tokens r.tokensLimit r.tokensPeriod r.today)
  let db ← found (incrementCounter db r.microsKey r.micros r.microsLimit)
    (planLimit .micros r.microsLimit r.microsPeriod r.today)
  found (incrementSpend db r.month r.micros r.ceilingMicros) (.unavailable "global ceiling reached")

/-- One-shot. Carries the keys reserved on, so a settle after a period boundary still
moves those rows. -/
structure SettleHandle where
  orgId : Nat
  tokensKey : CounterKey
  microsKey : CounterKey
  spendStart : Int
  tokens : Int
  micros : Int
  done : Bool := false
  deriving DecidableEq

def ReserveRequest.handle (r : ReserveRequest) : SettleHandle :=
  { orgId := r.orgId, tokensKey := r.tokensKey, microsKey := r.microsKey, spendStart := r.month
    tokens := r.tokens, micros := r.micros }

/-- The writes of a settle: the reservation becomes the actual usage. -/
def settleRows (db : PlatformDb) (h : SettleHandle) (tokens micros : Int) : PlatformDb :=
  addToSpend (addToCounter (addToCounter db h.tokensKey (tokens - h.tokens)) h.microsKey (micros - h.micros))
    h.spendStart (micros - h.micros)

/-! ## Any number of calls at once -/

/-- Where a reserve is. -/
inductive ReserveState
  | resolved (request : ReserveRequest)
  | upserted (request : ReserveRequest)
  /-- Committed, under that reservation. (If no adapter can be built now, the call
  raises and the reservation stays, never to be settled.) -/
  | reserved (reservation : Nat)
  | refused (error : ReserveError)
  deriving DecidableEq

structure Reservation where
  handle : SettleHandle
  /-- What it was settled for, if it was. -/
  actual : Option (Int × Int) := none
  deriving DecidableEq

structure PlatformWorld where
  db : PlatformDb := {}
  calls : Table ReserveState := .empty
  reservations : Table Reservation := .empty

inductive PlatformEvent
  /-- A reserve begins; `ent` is what the entitlements resolve to, if they can be read. -/
  | resolve (orgId : Nat) (tokens micros ceilingMicros today : Int) (ent : Option Entitlements)
  | upsert (call : Nat)
  | increment (call : Nat)
  /-- A database error in either transaction of a reserve. -/
  | reserveFails (call : Nat)
  | settle (reservation : Nat) (tokens micros : Int)
  /-- A database error in a settle. -/
  | settleFails (reservation : Nat)

def PlatformWorld.goto (w : PlatformWorld) (call : Nat) (s : ReserveState) : PlatformWorld :=
  { w with calls := w.calls.modify call (fun _ => s) }

/-- A settle marks its handle before it writes. -/
def markDone (w : PlatformWorld) (reservation : Nat) (actual : Option (Int × Int)) : PlatformWorld :=
  { w with reservations := w.reservations.modify reservation (fun r =>
      { r with handle := { r.handle with done := true }, actual }) }

/-- One step. An event that does not fit where the call is, is refused. -/
def platformStep (w : PlatformWorld) : PlatformEvent → Except String PlatformWorld
  | .resolve orgId tokens micros ceilingMicros today ent =>
    match resolveReserve orgId tokens micros ceilingMicros today ent with
    | .ok request => .ok { w with calls := w.calls.insert (.resolved request) }
    | .error e => .ok { w with calls := w.calls.insert (.refused e) }
  | .upsert call =>
    match w.calls.get? call with
    | some (.resolved request) =>
      .ok { w.goto call (.upserted request) with db := upsertRows w.db request }
    | _ => .error "not resolved"
  | .increment call =>
    match w.calls.get? call with
    | some (.upserted request) =>
      match incrementRows w.db request with
      | .ok db =>
        .ok { w.goto call (.reserved w.reservations.next) with
          db, reservations := w.reservations.insert { handle := request.handle } }
      | .error e => .ok (w.goto call (.refused e))
    | _ => .error "not upserted"
  | .reserveFails call =>
    match w.calls.get? call with
    | some (.resolved _) => .ok (w.goto call (.refused (.unavailable "reservation failed")))
    | some (.upserted _) => .ok (w.goto call (.refused (.unavailable "reservation failed")))
    | _ => .error "not reserving"
  | .settle reservation tokens micros =>
    match w.reservations.get? reservation with
    | some r =>
      if r.handle.done then .ok w
      else .ok { markDone w reservation (some (tokens, micros)) with db := settleRows w.db r.handle tokens micros }
    | none => .error "no handle"
  | .settleFails reservation =>
    match w.reservations.get? reservation with
    | some r => if r.handle.done then .ok w else .ok (markDone w reservation none)
    | none => .error "no handle"

end BetterDecision
