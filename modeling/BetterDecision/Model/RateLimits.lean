import BetterDecision.Lib.Locks
import BetterDecision.Lib.Runs
import BetterDecision.Lib.Windows
import BetterDecision.Model.Db
import Mathlib.Data.PNat.Defs
import Mathlib.Data.Rat.Defs
import Mathlib.Algebra.Order.Ring.Rat

/-!
# Rate-limit counters

`rate_limit_db`: one row a key, with the hits of its window and when the window ends. A hit
reads the clock, and then counts itself in one statement that starts the window anew if it
is over by that clock. In the same transaction it deletes rows that have long been over.

A transaction has its own row locked from the statement on, and the deletion takes rows
that nobody has locked, as many as it likes. The log of the hits and of the rows deleted is
kept beside, for what is to be said of a run.
-/

namespace BetterDecision

open Windows

/-- `_PURGE_MARGIN`, in seconds. -/
def limitPurgeMargin : ℚ := 60

/-- `_PURGE_BATCH`. -/
def limitPurgeBatch : Nat := 100

structure LimitRow where
  hits : Nat
  expiresAt : ℚ

/-- How far a call of `hit` is. -/
inductive HitPhase
  /-- It has read the clock. -/
  | read (key : String) (amount : ℕ+) (now : ℚ)
  /-- It has counted itself and read the count, and its transaction is open. -/
  | counted (key : String) (now : ℚ) (count : Nat)
  | returned (count : Nat)

/-- The rows a call has locked. -/
def HitPhase.locked : HitPhase → List String
  | .counted key _ _ => [key]
  | _ => []

/-- A row that was deleted, and how many hits had been made by then. -/
structure PurgedRow where
  key : String
  expiresAt : ℚ
  before : Nat

structure LimitWorld where
  clock : ℚ := 0
  rows : String → Option LimitRow := fun _ => none
  calls : Table HitPhase := .empty
  log : List (Hit String ℚ) := []
  removed : List PurgedRow := []

inductive LimitEvent
  | tick (later : ℚ)
  | begin (key : String) (amount : ℕ+)
  | execute (call : Nat)
  | purge (call : Nat) (stale : List String)

/-- The window of a row is over. -/
def LimitRow.Expired (row : LimitRow) (now : ℚ) : Prop := row.expiresAt ≤ now

instance LimitRow.decidableExpired (row : LimitRow) (now : ℚ) : Decidable (row.Expired now) := inferInstanceAs (Decidable (_ ≤ _))

/-- `_upsert_stmt`. Both columns go by the old expiry. -/
def upsertStmt (row : Option LimitRow) (now expiry : ℚ) (amount : Nat) : LimitRow :=
  match row with
  | none => { hits := amount, expiresAt := now + expiry }
  | some row =>
    { hits := if row.Expired now then amount else row.hits + amount
      expiresAt := if row.Expired now then now + expiry else row.expiresAt }

/-- Whether a hit starts a window. -/
def startsWindow (row : Option LimitRow) (now : ℚ) : Bool :=
  match row with
  | none => true
  | some row => row.Expired now

/-- A row the purge of a call may delete. -/
def Stale (rows : String → Option LimitRow) (now : ℚ) (key : String) : Prop :=
  ∃ row ∈ rows key, row.expiresAt < now - limitPurgeMargin

instance decidableStale (rows : String → Option LimitRow) (now : ℚ) (key : String) : Decidable (Stale rows now key) :=
  match h : rows key with
  | none => isFalse fun ⟨_, hrow, _⟩ => nomatch h.symm.trans hrow
  | some row =>
    if hold : row.expiresAt < now - limitPurgeMargin then isTrue ⟨row, h, hold⟩
    else isFalse fun ⟨_, hrow, hold'⟩ => hold (Option.some.inj (h.symm.trans hrow) ▸ hold')

def LimitWorld.goto (w : LimitWorld) (id : Nat) (phase : HitPhase) : LimitWorld :=
  { w with calls := w.calls.modify id (fun _ => phase) }

/-- The rows without those of the keys. -/
def withoutRows (rows : String → Option LimitRow) (keys : List String) : String → Option LimitRow :=
  fun key => if key ∈ keys then none else rows key

/-- What a purge deletes, for the log. -/
def removals (w : LimitWorld) (keys : List String) : List PurgedRow :=
  keys.filterMap fun key => (w.rows key).map fun row => { key, expiresAt := row.expiresAt, before := w.log.length }

section Steps

variable (hash : String → String) (expiry : String → ℚ)

/-- One step. The clock does not go back; an event whose call is elsewhere or has to wait is
refused, and so is a statement later than the margin after its clock. -/
def limitStep (w : LimitWorld) : LimitEvent → Result LimitWorld
  | .tick later => do
    refuse (later < w.clock) (.runtime "the clock does not go back")
    .ok { w with clock := later }
  | .begin key amount => .ok { w with calls := w.calls.insert (.read (hash key) amount w.clock) }
  | .execute id => do
    match ← found (w.calls.get? id) (.runtime "no call") with
    | .read key amount now => do
      refuse (w.calls.HeldBy HitPhase.locked id (· = key)) (.runtime "lock wait")
      refuse (limitPurgeMargin ≤ w.clock - now) (.runtime "too late")
      let row := upsertStmt (w.rows key) now (expiry key) amount
      let hit : Hit String ℚ :=
        { call := id, key, amount, clock := now, count := row.hits, starts := startsWindow (w.rows key) now }
      .ok { (w.goto id (.counted key now row.hits)) with
              rows := Function.update w.rows key (some row), log := w.log ++ [hit] }
    | _ => .error (.runtime "counted already")
  | .purge id stale => do
    match ← found (w.calls.get? id) (.runtime "no call") with
    | .counted _ now count => do
      refuse (limitPurgeBatch < stale.length) (.runtime "batch")
      refuse (¬ ∀ key ∈ stale, Stale w.rows now key) (.runtime "not stale")
      refuse (w.calls.HeldBy HitPhase.locked id (· ∈ stale)) (.runtime "skip locked")
      .ok { (w.goto id (.returned count)) with
              rows := withoutRows w.rows stale, removed := w.removed ++ removals w stale }
    | _ => .error (.runtime "nothing counted")

end Steps

end BetterDecision
