import BetterDecision.Lib.Keyed
import BetterDecision.Lib.Runs
import BetterDecision.Model.Db

/-!
# Refresh sessions

The session families of `state_db`. One sign-in is one family: a row with the jti
that may be used next, its head, and a member row for every jti handed out, numbered
by `seq`. Every call is one transaction, and every write takes the family row's lock
first, so calls on one family run one after the other. Times are microseconds of the
database clock.

What a query leaves open is an argument: `skip` are the rows `SKIP LOCKED` passes
over, and `rank` the order of rows the `ORDER BY` does not settle.
-/

namespace BetterDecision

structure AuthSessionFamily where
  sid : String
  userId : Nat
  headJti : String
  rotations : Nat
  expiresAt : Int
  deriving DecidableEq

structure AuthSessionMember where
  jti : String
  sid : String
  seq : Nat
  createdAt : Int
  deriving DecidableEq

/-- The two session tables. -/
structure StateDb where
  families : List AuthSessionFamily := []
  members : List AuthSessionMember := []
  deriving DecidableEq

/-- The database clock plus `offset` whole seconds. -/
def dbNow (now offset : Int) : Int := now + 1000000 * offset

def sessionGraceTtlSeconds : Int := 30

/-- `_KEEP_MEMBERS`. -/
def keepMembers : Nat := 1000

def maxFamiliesPerUser : Nat := 50

def purgeMargin : Int := 60

/-- `_live`. -/
def AuthSessionFamily.Live (f : AuthSessionFamily) (now : Int) : Prop := now < f.expiresAt

instance (f : AuthSessionFamily) (now : Int) : Decidable (f.Live now) := inferInstanceAs (Decidable (_ < _))

/-- A row of the table of families, by primary key. -/
def lockFamily (db : StateDb) (sid : String) : Option AuthSessionFamily :=
  rowAt AuthSessionFamily.sid db.families sid

def memberSeq (db : StateDb) (sid jti : String) : Option Nat :=
  (db.members.find? (fun m => m.jti == jti && m.sid == sid)).map (·.seq)

/-- The jti's member row and its family's row. Both joins are on a primary key. -/
def memberFamily (db : StateDb) (jti : String) : Option (AuthSessionMember × AuthSessionFamily) :=
  (rowAt AuthSessionMember.jti db.members jti).bind (fun m =>
    (lockFamily db m.sid).map (fun f => (m, f)))

/-- The jti was rotated out less than 30 s ago: the member after it was created inside
the window. -/
def Graced (db : StateDb) (now : Int) (m : AuthSessionMember) (f : AuthSessionFamily) : Prop :=
  m.jti ≠ f.headJti ∧
    ∃ s ∈ db.members, s.sid = m.sid ∧ s.seq = m.seq + 1 ∧ dbNow now (-sessionGraceTtlSeconds) < s.createdAt

instance (db : StateDb) (now : Int) (m : AuthSessionMember) (f : AuthSessionFamily) :
    Decidable (Graced db now m f) := inferInstanceAs (Decidable (_ ∧ _))

def dropFamilies (db : StateDb) (sids : List String) : StateDb where
  families := db.families.filter (fun f => !sids.contains f.sid)
  members := db.members.filter (fun m => !sids.contains m.sid)

/-- Which constraint an insert of a member breaks. -/
inductive MemberClash
  | jti
  | seq
  deriving DecidableEq, Repr

def insertMember (db : StateDb) (m : AuthSessionMember) : Except MemberClash StateDb :=
  if db.members.any (fun n => n.jti == m.jti) then .error .jti
  else if db.members.any (fun n => n.sid == m.sid && n.seq == m.seq) then .error .seq
  else .ok { db with members := db.members ++ [m] }

/-- The user's other families past the fifty kept, at most twenty of them. -/
def familiesToEvict (db : StateDb) (sid : String) (userId : Nat) (skip : List String)
    (rank : String → Nat) : List String :=
  let others := db.families.filter (fun f => f.userId == userId && f.sid != sid && !skip.contains f.sid)
  let newestFirst := others.insertionSort (fun f g =>
    g.expiresAt < f.expiresAt ∨ (g.expiresAt = f.expiresAt ∧ rank f.sid ≤ rank g.sid))
  ((newestFirst.drop (maxFamiliesPerUser - 1)).take 20).map (·.sid)

/-- A new family and its first member; the user's oldest families go. -/
def sessionIssue (db : StateDb) (now : Int) (jti sid : String) (userId : Nat) (ttl : Int)
    (skip : List String) (rank : String → Nat) : Result StateDb := do
  refuse ((lockFamily db sid).isSome) .integrity
  let family : AuthSessionFamily :=
    { sid, userId, headJti := jti, rotations := 0, expiresAt := dbNow now ttl }
  match insertMember { db with families := db.families ++ [family] } { jti, sid, seq := 0, createdAt := now } with
  | .error _ => .error .integrity
  | .ok db => .ok (dropFamilies db (familiesToEvict db sid userId skip rank))

/-- `_purge_families`: a transaction of its own, some time after an issue. -/
def purgeFamilies (db : StateDb) (now : Int) (skip : List String) (rank : String → Nat) : StateDb :=
  let stale := db.families.filter (fun f =>
    decide (f.expiresAt < dbNow now (-purgeMargin)) && !skip.contains f.sid)
  dropFamilies db (((stale.insertionSort (fun f g => rank f.sid ≤ rank g.sid)).take 20).map (·.sid))

/-- What a validation or a grace answers. -/
structure SessionRow where
  userId : Nat
  sid : String
  deriving DecidableEq, Repr

def sessionValidate (db : StateDb) (now : Int) (jti : String) : Option SessionRow :=
  ((memberFamily db jti).filter (fun p => decide (p.2.headJti = p.1.jti ∧ p.2.Live now))).map
    (fun p => ⟨p.2.userId, p.2.sid⟩)

/-- The row, and the jti to go on with. -/
def sessionGrace (db : StateDb) (now : Int) (jti : String) : Option (SessionRow × String) :=
  ((memberFamily db jti).filter (fun p => decide (p.2.Live now ∧ Graced db now p.1 p.2))).map
    (fun p => (⟨p.2.userId, p.2.sid⟩, p.2.headJti))

inductive RotateResult
  | ok
  | sessionRevoked
  | alreadyRotated
  | jtiCollision
  deriving DecidableEq, Repr

/-- The family after a rotation: a new head, and only the last members kept. -/
def rotated (db : StateDb) (now : Int) (newJti : String) (fam : AuthSessionFamily) (ttl : Int) : StateDb where
  families := db.families.map (fun f =>
    if f.sid = fam.sid then
      { f with headJti := newJti, rotations := fam.rotations + 1, expiresAt := dbNow now ttl }
    else f)
  members := db.members.filter (fun m =>
    !decide (m.sid = fam.sid ∧ m.seq + keepMembers ≤ fam.rotations + 1))

def sessionRotate (db : StateDb) (now : Int) (oldJti newJti sid : String) (userId : Nat) (idleTtl : Int) :
    Result (StateDb × RotateResult) :=
  match lockFamily db sid with
  | none => .ok (db, .sessionRevoked)
  | some fam =>
    if ¬ fam.Live now ∨ fam.userId ≠ userId then .ok (db, .sessionRevoked)
    else if memberSeq db sid oldJti = none then .ok (db, .sessionRevoked)
    else if fam.headJti ≠ oldJti then .ok (db, .alreadyRotated)
    else
      match insertMember db { jti := newJti, sid, seq := fam.rotations + 1, createdAt := now } with
      -- only a jti clash is a collision; a (sid, seq) clash is a broken family
      | .error .jti => .ok (db, .jtiCollision)
      | .error .seq => .error .integrity
      | .ok db => .ok (rotated db now newJti fam idleTtl, .ok)

def sessionRevokeFamily (db : StateDb) (now : Int) (sid : String) : StateDb × List String :=
  match lockFamily db sid with
  | none => (db, [])
  | some fam =>
    -- already expired: the purge removes it
    if ¬ fam.Live now then (db, [])
    else (dropFamilies db [sid],
      ((db.members.filter (fun m => m.sid == sid)).map (·.jti)).insertionSort (· ≤ ·))

def sessionRevokeUser (db : StateDb) (userId : Nat) (keepSids : List String) : StateDb × Nat :=
  let sids := ((db.families.filter (fun f => f.userId == userId)).map (·.sid)).filter
    (fun sid => !keepSids.contains sid)
  (dropFamilies db sids, sids.length)

inductive ReuseResult
  | unknown
  | live
  | grace
  | reused (count : Nat)
  deriving DecidableEq, Repr

/-- Classify a jti that is neither head nor graced. Reuse takes the whole family down. -/
def sessionDetectReuseAndRevoke (db : StateDb) (now : Int) (jti sid : String) : StateDb × ReuseResult :=
  match lockFamily db sid with
  | none => (db, .unknown)
  | some fam =>
    if ¬ fam.Live now then (db, .unknown)
    else if fam.headJti = jti then (db, .live)
    else if memberSeq db sid jti = none ∧ fam.rotations < keepMembers then (db, .unknown)
    -- past this point a non-member is a pruned jti: reuse
    else if (memberFamily db jti).any (fun p => decide (Graced db now p.1 p.2)) then (db, .grace)
    else (dropFamilies db [sid], .reused (fam.rotations + 1))

/-! ## Calls -/

inductive SessionCall
  | issue (jti sid : String) (userId : Nat) (ttl : Int) (skip : List String) (rank : String → Nat)
  | purge (skip : List String) (rank : String → Nat)
  | validate (jti : String)
  | grace (jti : String)
  | rotate (oldJti newJti sid : String) (userId : Nat) (idleTtl : Int)
  | revokeFamily (sid : String)
  | revokeUser (userId : Nat) (keepSids : List String)
  | detectReuseAndRevoke (jti sid : String)

/-- The tables, the clock, and as history every member row ever inserted, newest
first. -/
structure SessionWorld where
  db : StateDb := {}
  clock : Int := 0
  issued : List AuthSessionMember := []

/-- What a call adds to the history. -/
def issuedBy (db : StateDb) (now : Int) : SessionCall → List AuthSessionMember
  | .issue jti sid _ _ _ _ => [{ jti, sid, seq := 0, createdAt := now }]
  | .rotate oldJti newJti sid userId idleTtl =>
    match sessionRotate db now oldJti newJti sid userId idleTtl, lockFamily db sid with
    | .ok (_, .ok), some fam => [{ jti := newJti, sid, seq := fam.rotations + 1, createdAt := now }]
    | _, _ => []
  | _ => []

/-- The tables after a call. -/
def sessionTables (db : StateDb) (now : Int) : SessionCall → Result StateDb
  | .issue jti sid userId ttl skip rank => sessionIssue db now jti sid userId ttl skip rank
  | .purge skip rank => .ok (purgeFamilies db now skip rank)
  | .validate _ => .ok db
  | .grace _ => .ok db
  | .rotate oldJti newJti sid userId idleTtl =>
    (sessionRotate db now oldJti newJti sid userId idleTtl).map Prod.fst
  | .revokeFamily sid => .ok (sessionRevokeFamily db now sid).1
  | .revokeUser userId keepSids => .ok (sessionRevokeUser db userId keepSids).1
  | .detectReuseAndRevoke jti sid => .ok (sessionDetectReuseAndRevoke db now jti sid).1

/-- One call at a time of the clock. The clock does not go back. -/
def sessionStep (w : SessionWorld) (c : Int × SessionCall) : Result SessionWorld := do
  refuse (c.1 < w.clock) (.runtime "the clock went back")
  let db ← sessionTables w.db c.1 c.2
  .ok { db, clock := c.1, issued := issuedBy w.db c.1 c.2 ++ w.issued }

end BetterDecision
