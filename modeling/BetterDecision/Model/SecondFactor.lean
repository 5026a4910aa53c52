import BetterDecision.Model.LeasesAndClaims

/-!
# One-time codes

`verify_totp_once` (`auth/second_factor.py`) for one user: the code is matched to a time step of
thirty seconds, the step is claimed in `state_db`, and then the two before it are, whether or not
these were taken. Any number of requests run at once, and each claim is a transaction of its own,
so a request is cut there. Everybody reads one clock, in microseconds.

A request claims its step within thirty seconds of the match. The code of each step is whatever
the user's secret makes it.
-/

namespace BetterDecision

/-- The length of a time step. -/
def totpStepMicros : Int := 30 * 1000000

/-- `_TOTP_STEP_CLAIM_TTL_SECONDS`. -/
def totpStepClaimTtlSeconds : Int := 120

/-- The number of a moment's time step. -/
def timecode (now : Int) : Int := now / totpStepMicros

/-- The step a code belongs to, a step off at most. -/
def matchTotpStep (otp : Int → String) (code : String) (now : Int) : Option Int :=
  ([timecode now - 1, timecode now, timecode now + 1].filter (fun step => code == otp step)).getLast?

/-- The row of a step: the scope, and the hash of the user's id and the step. -/
def totpKey (hash : String → String) (userId : Nat) (step : Int) : String × String :=
  ("totp_step", hash (toString userId ++ ":" ++ toString step))

/-- How far a request is. -/
inductive TotpPhase
  | matched (step on : Int)
  /-- Its step is claimed. -/
  | claimed (step : Int)
  /-- So is the step before it. -/
  | retired (step : Int)
  | accepted (step : Int)
  | refused
  deriving DecidableEq, Repr

structure TotpWorld where
  claims : ClaimWorld := {}
  calls : Table TotpPhase := .empty

inductive TotpEvent
  /-- A request comes with a code. -/
  | verify (code : String)
  /-- It claims its next step. -/
  | claim (call : Nat)
  /-- The clock, the purge, and the claims of others. -/
  | other (event : ClaimEvent)

/-- The token is not recorded, or its time is up. -/
def claimIsFree (w : ClaimWorld) (key : String × String) : Prop := (w.used key).filter (w.clock < ·) = none

instance decidableClaimIsFree (w : ClaimWorld) (key : String × String) : Decidable (claimIsFree w key) :=
  inferInstanceAs (Decidable (_ = none))

/-- The claim of somebody else is of no step of this user. -/
def ClaimEvent.IsOther (hash : String → String) (userId : Nat) : ClaimEvent → Prop
  | .claim scope token _ => ∀ step, (scope, hash token) ≠ totpKey hash userId step
  | _ => True

def TotpWorld.goto (w : TotpWorld) (id : Nat) (phase : TotpPhase) : TotpWorld :=
  { w with calls := w.calls.modify id (fun _ => phase) }

/-- A claim of a step, and the request told of it. -/
def TotpWorld.claimed (w : TotpWorld) (key : String × String) (id : Nat) (phase : TotpPhase) : TotpWorld :=
  { (w.goto id phase) with claims := claimToken w.claims key totpStepClaimTtlSeconds }

def totpStep (hash : String → String) (otp : Int → String) (userId : Nat) (w : TotpWorld) :
    TotpEvent → Result TotpWorld
  | .verify code =>
    match matchTotpStep otp code w.claims.clock with
    | none => .ok { w with calls := w.calls.insert .refused }
    | some step => .ok { w with calls := w.calls.insert (.matched step w.claims.clock) }
  | .claim id => do
    match ← found (w.calls.get? id) (.runtime "no request") with
    | .matched step on =>
      refuse (on + totpStepMicros ≤ w.claims.clock) (.runtime "it claims in time")
      if claimIsFree w.claims (totpKey hash userId step) then
        .ok (w.claimed (totpKey hash userId step) id (.claimed step))
      else .ok (w.claimed (totpKey hash userId step) id .refused)
    | .claimed step => .ok (w.claimed (totpKey hash userId (step - 1)) id (.retired step))
    | .retired step => .ok (w.claimed (totpKey hash userId (step - 2)) id (.accepted step))
    | _ => .error (.runtime "answered")
  | .other event => do
    let claims ← claimStep hash w.claims event
    .ok { w with claims }

end BetterDecision
