import BetterDecision.Lib.Runs
import BetterDecision.Lib.Table
import BetterDecision.Model.AuthSessions
import Mathlib.Data.PNat.Defs

/-!
# Leases and single-use tokens

The two tables of `state_db` that keep a name to one caller at a time, and a token to one
use. Each transaction is one step at one reading of the database clock, and the steps of
different callers come in any order. To take a lease is two transactions: one for an expired
lease, one for none.

A holder's token is drawn anew for each call, so the call's number stands for it. Every
caller asks for a lease of some seconds.
-/

namespace BetterDecision

/-! ## Leases -/

structure Lease where
  holder : Nat
  expiresAt : Int

/-- How far a call of `_acquire_lease` is, and what became of it. -/
inductive LeasePhase
  | updating (name : String) (ttl : ℕ+)
  /-- There was no expired lease to take over. -/
  | inserting (name : String) (ttl : ℕ+)
  /-- The holder's token was returned. -/
  | acquired (name : String) (expiresAt : Int)
  | refused (name : String)
  | released (name : String)

structure LeaseWorld where
  clock : Int := 0
  leases : String → Option Lease := fun _ => none
  calls : Table LeasePhase := .empty

inductive LeaseEvent
  | tick (later : Int)
  | acquire (name : String) (ttl : ℕ+)
  | update (call : Nat)
  | insert (call : Nat)
  /-- `_release_lease`, with the token the call was given. -/
  | release (call : Nat)

def LeaseWorld.goto (w : LeaseWorld) (id : Nat) (phase : LeasePhase) : LeaseWorld :=
  { w with calls := w.calls.modify id (fun _ => phase) }

/-- The row of the call, and the call told of it. -/
def LeaseWorld.take (w : LeaseWorld) (id : Nat) (name : String) (ttl : ℕ+) : LeaseWorld :=
  { (w.goto id (.acquired name (dbNow w.clock ttl))) with
    leases := Function.update w.leases name (some { holder := id, expiresAt := dbNow w.clock ttl }) }

/-- The leases without that of a holder. -/
def withoutHolder (leases : String → Option Lease) (name : String) (id : Nat) : String → Option Lease :=
  Function.update leases name ((leases name).filter (·.holder ≠ id))

def leaseStep (w : LeaseWorld) : LeaseEvent → Result LeaseWorld
  | .tick later => do
    refuse (later < w.clock) (.runtime "the clock does not go back")
    .ok { w with clock := later }
  | .acquire name ttl => .ok { w with calls := w.calls.insert (.updating name ttl) }
  | .update id => do
    match ← found (w.calls.get? id) (.runtime "no call") with
    | .updating name ttl =>
      match w.leases name with
      | none => .ok (w.goto id (.inserting name ttl))
      | some lease =>
        if lease.expiresAt ≤ w.clock then .ok (w.take id name ttl) else .ok (w.goto id (.inserting name ttl))
    | _ => .error (.runtime "past it")
  | .insert id => do
    match ← found (w.calls.get? id) (.runtime "no call") with
    | .inserting name ttl =>
      match w.leases name with
      | none => .ok (w.take id name ttl)
      -- the primary key is there
      | some _ => .ok (w.goto id (.refused name))
    | _ => .error (.runtime "not there")
  | .release id => do
    match ← found (w.calls.get? id) (.runtime "no call") with
    | .acquired name _ | .released name =>
      .ok { (w.goto id (.released name)) with leases := withoutHolder w.leases name id }
    | _ => .error (.runtime "no token")

/-! ## Single-use tokens -/

/-- A claim that was made, and what came of it. -/
structure ClaimRecord where
  key : String × String
  madeAt : Int
  ttl : Int
  won : Bool

structure ClaimWorld where
  clock : Int := 0
  /-- The expiry of each recorded token of each scope. -/
  used : String × String → Option Int := fun _ => none
  log : List ClaimRecord := []

inductive ClaimEvent
  | tick (later : Int)
  | claim (scope token : String) (ttl : Int)
  | purge (stale : List (String × String))

/-- `_purge_used_tokens`: rows past the margin, as many as it likes. -/
def StaleToken (w : ClaimWorld) (key : String × String) : Prop :=
  ∃ expiresAt ∈ w.used key, expiresAt < dbNow w.clock (-purgeMargin)

instance decidableStaleToken (w : ClaimWorld) (key : String × String) : Decidable (StaleToken w key) :=
  inferInstanceAs (Decidable (∃ expiresAt ∈ w.used key, _))

/-- `_claim`. An expired row is deleted, and the row inserted unless its key is there. -/
def claimToken (w : ClaimWorld) (key : String × String) (ttl : Int) : ClaimWorld :=
  let kept := (w.used key).filter (w.clock < ·)
  match kept with
  | some _ =>
    -- the whole transaction is rolled back
    { w with log := w.log ++ [{ key, madeAt := w.clock, ttl, won := false }] }
  | none =>
    { w with
      used := Function.update w.used key (some (dbNow w.clock ttl))
      log := w.log ++ [{ key, madeAt := w.clock, ttl, won := true }] }

def claimStep (hash : String → String) (w : ClaimWorld) : ClaimEvent → Result ClaimWorld
  | .tick later => do
    refuse (later < w.clock) (.runtime "the clock does not go back")
    .ok { w with clock := later }
  | .claim scope token ttl => .ok (claimToken w (scope, hash token) ttl)
  | .purge stale => do
    refuse (¬ ∀ key ∈ stale, StaleToken w key) (.runtime "not stale")
    .ok { w with used := fun key => if key ∈ stale then none else w.used key }

end BetterDecision
