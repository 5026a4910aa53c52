import BetterDecision.Model.Members

/-!
# Invitations and seats

`create_invitation`, `revoke_invitation`, `accept_invitation` and `remove_member`, each
one transaction of the statements it issues. A plain read sees the snapshot that the
transaction's first read fixed (`begin`); a locking read, a write and a unique index
see what is committed, and wait for a row that another transaction holds.

A create and an accept first lock the organisation (`lock`). A create then checks its
guards and clears expired rows of the address (`check`) and inserts (`write`). An
accept locks the invitation and checks it (`check`), and writes the user and the
invitation (`write`). The other two only `write`. The router commits.

Addresses are the normalised ones. Times are seconds. An id is handed out when its row
is committed.
-/

namespace BetterDecision

structure Invitation where
  orgId : Nat
  email : String
  /-- The address while the row is the open invitation of it. -/
  openEmail : Option String := none
  role : Role := .member
  createdBy : Nat
  expiresAt : Int
  acceptedAt : Option Int := none
  revokedAt : Option Int := none
  deriving DecidableEq, Repr

structure Plan where
  name : String
  maxUsers : Option Nat
  deriving DecidableEq, Repr

/-- What `enforce_user_limit` reads outside the users. -/
structure SeatRules where
  billingUiEnabled : Bool
  plan : Option Plan
  deriving DecidableEq, Repr

structure InvitationDb where
  users : Table User := .empty
  invitations : Table Invitation := .empty

def day : Int := 86400

def invitationTtl : Int := 7 * day

def maxPendingInvitations : Nat := 20

def maxInvitationsPerDay : Nat := 50

/-! ## Counts -/

/-- Neither accepted, revoked nor expired. -/
def Invitation.isPending (inv : Invitation) (now : Int) : Bool :=
  inv.acceptedAt.isNone && inv.revokedAt.isNone && decide (now < inv.expiresAt)

/-- `count_pending_invitations`. -/
def countPendingInvitations (invitations : Table Invitation) (orgId : Nat) (now : Int) : Nat :=
  (invitations.select (fun _ inv => inv.orgId == orgId && inv.isPending now)).length

/-- The invitations created in the last 24 hours, read off when they expire. -/
def countCreated (invitations : Table Invitation) (orgId : Nat) (now : Int) : Nat :=
  (invitations.select (fun _ inv =>
    inv.orgId == orgId && decide (now + invitationTtl - day < inv.expiresAt))).length

def countActive (users : Table User) (orgId : Nat) : Nat :=
  (users.select (fun _ u => u.orgId == orgId && u.isActive)).length

def enforceInvitationCaps (invitations : Table Invitation) (orgId : Nat) (now : Int) : Except MemberError Unit := do
  refuse (maxPendingInvitations ≤ countPendingInvitations invitations orgId now)
    (.conflict s!"This organization already has {maxPendingInvitations} pending invitations. Revoke some before sending more."
      (some "pending_invitation_cap"))
  refuse (maxInvitationsPerDay ≤ countCreated invitations orgId now) .quotaExceeded

def enforceUserLimit (rules : SeatRules) (users : Table User) (orgId : Nat) : Except MemberError Unit :=
  if !rules.billingUiEnabled then .ok ()
  else
    match rules.plan with
    | none => .ok ()
    | some plan =>
      match plan.maxUsers with
      | none => .ok ()
      | some maxUsers =>
        refuse (maxUsers ≤ countActive users orgId)
          (.validation s!"Your plan ({plan.name}) allows a maximum of {maxUsers} user(s). Upgrade your plan to add more users.")

/-! ## The calls -/

inductive InvitationCall
  | create (orgId createdBy : Nat) (email : String) (role : Role)
  | revoke (orgId invitationId : Nat)
  /-- `payload` is what the token decodes to, if it does. -/
  | accept (payload : Option (Nat × String)) (username : String)
  | removeMember (orgId actorId targetUserId : Nat)

/-- What a transaction has written, not committed. -/
inductive InvitationWrite
  /-- Expired rows cleared, and a new one. -/
  | created (cleared : List Nat) (inv : Invitation)
  | revoked (id : Nat) (now : Int)
  /-- The invitation, and a user made active again. -/
  | reactivated (id : Nat) (now : Int) (user : Nat) (role : Option Role)
  /-- The invitation, and a new user. -/
  | joined (id : Nat) (now : Int) (user : User)
  | removed (write : UserWrite)

inductive InvitationPhase
  | begun
  /-- The organisation is locked. -/
  | locked (orgId : Nat)
  /-- A create past its guards. -/
  | checked (orgId : Nat) (cleared : List Nat) (now : Int)
  /-- An accept that holds its invitation and is past its guards. -/
  | claimed (orgId id : Nat) (inv : Invitation) (now : Int) (existing : Option (Nat × User))
  | written (orgId : Option Nat) (write : InvitationWrite)
  | done (outcome : Except MemberError Unit)

structure InvitationTx where
  call : InvitationCall
  snapshot : InvitationDb
  phase : InvitationPhase := .begun

/-- History: one invitation accepted. -/
structure AcceptedInvitation where
  id : Nat
  /-- The row as it was committed until then. -/
  row : Invitation
  now : Int
  /-- The active users of its organisation, this one included. -/
  seats : Nat

structure InvitationWorld where
  clock : Int
  db : InvitationDb
  txs : Table InvitationTx := .empty
  /-- History, newest first. -/
  accepts : List AcceptedInvitation := []

inductive InvitationEvent
  | begin (call : InvitationCall)
  | lock (tx : Nat)
  | check (tx : Nat)
  | write (tx : Nat)
  | commit (tx : Nat)
  /-- The transaction is rolled back. -/
  | fail (tx : Nat)
  | tick (seconds : Nat)

/-! ## Locks -/

/-- The organisation a transaction holds. -/
def InvitationPhase.org : InvitationPhase → Option Nat
  | .locked orgId => some orgId
  | .checked orgId _ _ => some orgId
  | .claimed orgId _ _ _ _ => some orgId
  | .written orgId _ => orgId
  | _ => none

/-- The invitations it holds. -/
def InvitationPhase.invitations : InvitationPhase → List Nat
  | .checked _ cleared _ => cleared
  | .claimed _ id _ _ _ => [id]
  | .written _ (.created cleared _) => cleared
  | .written _ (.revoked id _) => [id]
  | .written _ (.reactivated id _ _ _) => [id]
  | .written _ (.joined id _ _) => [id]
  | _ => []

/-- The user it holds. -/
def InvitationPhase.user : InvitationPhase → Option Nat
  | .written _ (.reactivated _ _ user _) => some user
  | .written _ (.removed write) => some write.row
  | _ => none

/-- The user it is adding. -/
def InvitationPhase.newUser : InvitationPhase → Option User
  | .written _ (.joined _ _ user) => some user
  | _ => none

/-- Some transaction but `id` is in a phase that `test` holds of. -/
def InvitationWorld.Other (w : InvitationWorld) (id : Nat) (test : InvitationPhase → Bool) : Prop :=
  ∃ q ∈ w.txs.rows, q.1 ≠ id ∧ test q.2.phase = true

instance (w : InvitationWorld) (id : Nat) (test : InvitationPhase → Bool) : Decidable (w.Other id test) :=
  inferInstanceAs (Decidable (∃ q ∈ w.txs.rows, q.1 ≠ id ∧ test q.2.phase = true))

def InvitationWorld.OrgHeld (w : InvitationWorld) (id orgId : Nat) : Prop :=
  w.Other id (fun p => p.org == some orgId)

def InvitationWorld.InvitationHeld (w : InvitationWorld) (id invitation : Nat) : Prop :=
  w.Other id (fun p => p.invitations.contains invitation)

def InvitationWorld.UserHeld (w : InvitationWorld) (id user : Nat) : Prop :=
  w.Other id (fun p => p.user == some user)

/-- Another transaction is adding a user with this name or address. -/
def InvitationWorld.NameHeld (w : InvitationWorld) (id : Nat) (new : User) : Prop :=
  w.Other id (fun p => p.newUser.any (fun u => u.username == new.username || u.email == new.email))

instance (w : InvitationWorld) (id orgId : Nat) : Decidable (w.OrgHeld id orgId) :=
  inferInstanceAs (Decidable (w.Other _ _))

instance (w : InvitationWorld) (id invitation : Nat) : Decidable (w.InvitationHeld id invitation) :=
  inferInstanceAs (Decidable (w.Other _ _))

instance (w : InvitationWorld) (id user : Nat) : Decidable (w.UserHeld id user) :=
  inferInstanceAs (Decidable (w.Other _ _))

instance (w : InvitationWorld) (id : Nat) (new : User) : Decidable (w.NameHeld id new) :=
  inferInstanceAs (Decidable (w.Other _ _))

/-! ## Steps -/

def userByEmail (users : Table User) (email : String) : Option (Nat × User) :=
  (users.select (fun _ u => u.email == email)).head?

/-- The open invitations of an address. -/
def openInvitations (invitations : Table Invitation) (orgId : Nat) (email : String) : List Nat :=
  (invitations.select (fun _ inv => inv.orgId == orgId && inv.openEmail == some email)).map Prod.fst

/-- The rows `_clear_expired_open_invites` clears. -/
def expiredOpenInvites (invitations : Table Invitation) (orgId : Nat) (email : String) (now : Int) : List Nat :=
  (invitations.select (fun _ inv => inv.orgId == orgId && inv.email == email && inv.acceptedAt.isNone &&
    inv.revokedAt.isNone && decide (inv.expiresAt ≤ now) && inv.openEmail.isSome)).map Prod.fst

/-- The guards of a create. Clearing rows moves no count. -/
def checkCreate (rules : SeatRules) (db : InvitationDb) (orgId : Nat) (email : String) (cleared : List Nat) (now : Int) :
    Except MemberError Unit := do
  refuse (∃ u ∈ userByEmail db.users email, u.2.orgId = orgId ∧ u.2.isActive)
    (.conflict "This person is already a member of the org" none)
  refuse (∃ id ∈ openInvitations db.invitations orgId email, id ∉ cleared)
    (.conflict "This email is already invited" none)
  enforceInvitationCaps db.invitations orgId now
  enforceUserLimit rules db.users orgId

def usernameMinLength : Nat := 3

def usernameMaxLength : Nat := 64

/-- `USERNAME_PATTERN`. -/
def validUsername (username : String) : Bool :=
  decide (usernameMinLength ≤ username.length) && decide (username.length ≤ usernameMaxLength) &&
    username.toList.all (fun c => c.isAlphanum || c == '.' || c == '_' || c == '-')

def badUsername : MemberError :=
  .validation s!"Username must be {usernameMinLength}-{usernameMaxLength} chars and contain only letters, digits, dot, underscore, hyphen."

/-- The guards of an accept on the invitation it has locked, and the user it found. -/
def checkAccept (rules : SeatRules) (users : Table User) (inv : Invitation) (email username : String) (now : Int) :
    Except MemberError (Option (Nat × User)) := do
  refuse (email ≠ inv.email) .unavailable
  refuse (¬ inv.isPending now) .unavailable
  match userByEmail users inv.email with
  | none =>
    enforceUserLimit rules users inv.orgId
    refuse (¬ validUsername username) badUsername
    .ok none
  | some existing => do
    -- a member of another organisation, or an active one of this
    refuse (existing.2.orgId ≠ inv.orgId ∨ existing.2.isActive) .unavailable
    enforceUserLimit rules users inv.orgId
    refuse (existing.2.isSuperadmin)
      (.conflict "This account holds a platform role and cannot be reactivated through an organization invitation. Contact platform support."
        none)
    .ok (some existing)

def InvitationWorld.goto (w : InvitationWorld) (id : Nat) (phase : InvitationPhase) : InvitationWorld :=
  { w with txs := w.txs.modify id (fun tx => { tx with phase }) }

def InvitationWorld.finish (w : InvitationWorld) (id : Nat) (outcome : Except MemberError Unit) : InvitationWorld :=
  w.goto id (.done outcome)

/-- The organisation's row lock. An accept finds the organisation by a plain read. -/
def lockStep (w : InvitationWorld) (id : Nat) (tx : InvitationTx) : Except MemberError InvitationWorld :=
  match tx.call with
  | .create orgId _ _ _ => do
    refuse (w.OrgHeld id orgId) .crashed
    .ok (w.goto id (.locked orgId))
  | .accept payload _ =>
    match payload.bind (fun p => tx.snapshot.invitations.get? p.1) with
    | none => .ok (w.finish id (.error .unavailable))
    | some inv => do
      refuse (w.OrgHeld id inv.orgId) .crashed
      .ok (w.goto id (.locked inv.orgId))
  | _ => .error .crashed

def checkStep (rules : SeatRules) (w : InvitationWorld) (id : Nat) (tx : InvitationTx) (orgId : Nat) :
    Except MemberError InvitationWorld :=
  match tx.call with
  | .create _ _ email _ => do
    let cleared := expiredOpenInvites w.db.invitations orgId email w.clock
    refuse (∃ i ∈ cleared, w.InvitationHeld id i) .crashed
    match checkCreate rules tx.snapshot orgId email cleared w.clock with
    | .error e => .ok (w.finish id (.error e))
    | .ok _ => .ok (w.goto id (.checked orgId cleared w.clock))
  | .accept (some (invitationId, email)) username => do
    refuse (w.InvitationHeld id invitationId) .crashed
    match (w.db.invitations.get? invitationId).filter (fun inv => inv.orgId == orgId) with
    | none => .ok (w.finish id (.error .unavailable))
    | some inv =>
      match checkAccept rules tx.snapshot.users inv email username w.clock with
      | .error e => .ok (w.finish id (.error e))
      | .ok existing => .ok (w.goto id (.claimed orgId invitationId inv w.clock existing))
  | _ => .error .crashed

/-- The insert of a create, after the rows it has cleared. -/
def insertInvitation (w : InvitationWorld) (id orgId createdBy : Nat) (email : String) (role : Role)
    (cleared : List Nat) : Except MemberError InvitationWorld := do
  let clash := (openInvitations w.db.invitations orgId email).filter (· ∉ cleared)
  refuse (∃ i ∈ clash, w.InvitationHeld id i) .crashed
  if clash = [] then
    .ok (w.goto id (.written (some orgId) (.created cleared
      { orgId, email, openEmail := some email, role, createdBy, expiresAt := w.clock + invitationTtl })))
  else .ok (w.finish id (.error (.conflict "This email is already invited" none)))

/-- The writes of an accept. -/
def acceptInvitation (w : InvitationWorld) (id orgId invitationId : Nat) (inv : Invitation) (now : Int)
    (username : String) : Option (Nat × User) → Except MemberError InvitationWorld
  | some (user, existing) => do
    refuse (w.UserHeld id user) .crashed
    if (w.db.users.get? user).isSome then
      .ok (w.goto id (.written (some orgId) (.reactivated invitationId now user
        (if existing.role = inv.role then none else some inv.role))))
    else .ok (w.finish id (.error .staleData))
  | none => do
    let new : User := { orgId := inv.orgId, username, email := inv.email, role := inv.role }
    refuse (w.NameHeld id new) .crashed
    if w.db.users.select (fun _ u => u.username == username || u.email == inv.email) = [] then
      .ok (w.goto id (.written (some orgId) (.joined invitationId now new)))
    else .ok (w.finish id (.error (.conflict "That username is already taken" none)))

def revokeInvitation (w : InvitationWorld) (id : Nat) (db : InvitationDb) (orgId invitationId : Nat) :
    Except MemberError InvitationWorld :=
  match (db.invitations.get? invitationId).filter (fun inv => inv.orgId == orgId) with
  | none => .ok (w.finish id (.error (.notFound "Invitation")))
  | some inv =>
    if inv.acceptedAt.isSome ∨ inv.revokedAt.isSome then .ok (w.finish id (.ok ()))
    else do
      refuse (w.InvitationHeld id invitationId) .crashed
      .ok (w.goto id (.written none (.revoked invitationId w.clock)))

def removeStep (w : InvitationWorld) (id : Nat) (users : Table User) (orgId actorId targetUserId : Nat) :
    Except MemberError InvitationWorld :=
  match (MemberCall.removeMember orgId actorId targetUserId).plan users with
  | .error e => .ok (w.finish id (.error e))
  | .ok none => .ok (w.finish id (.ok ()))
  | .ok (some write) => do
    refuse (w.UserHeld id write.row) .crashed
    if (w.db.users.get? write.row).isSome then .ok (w.goto id (.written none (.removed write)))
    else .ok (w.finish id (.error .staleData))

def writeStep (w : InvitationWorld) (id : Nat) (tx : InvitationTx) : Except MemberError InvitationWorld :=
  match tx.phase, tx.call with
  | .checked orgId cleared _, .create _ createdBy email role => insertInvitation w id orgId createdBy email role cleared
  | .claimed orgId invitationId inv now existing, .accept _ username =>
    acceptInvitation w id orgId invitationId inv now username existing
  | .begun, .revoke orgId invitationId => revokeInvitation w id tx.snapshot orgId invitationId
  | .begun, .removeMember orgId actorId targetUserId => removeStep w id tx.snapshot.users orgId actorId targetUserId
  | _, _ => .error .crashed

/-- What a commit makes of the tables. -/
def InvitationWrite.apply (db : InvitationDb) : InvitationWrite → InvitationDb
  | .created cleared inv =>
    { db with invitations := (db.invitations.mapRows (fun i row =>
        if i ∈ cleared then { row with openEmail := none } else row)).insert inv }
  | .revoked id now =>
    { db with invitations := db.invitations.modify id (fun inv => { inv with revokedAt := some now, openEmail := none }) }
  | .reactivated id now user role =>
    { users := (UserWrite.update user role (some true)).apply db.users
      invitations := db.invitations.modify id (fun inv => { inv with acceptedAt := some now, openEmail := none }) }
  | .joined id now user =>
    { users := db.users.insert user
      invitations := db.invitations.modify id (fun inv => { inv with acceptedAt := some now, openEmail := none }) }
  | .removed write => { db with users := write.apply db.users }

/-- The invitation a write accepts, and when. -/
def InvitationWrite.accepts : InvitationWrite → Option (Nat × Int)
  | .reactivated id now _ _ => some (id, now)
  | .joined id now _ => some (id, now)
  | _ => none

/-- The history of a commit. -/
def InvitationWorld.record (w : InvitationWorld) (db : InvitationDb) (write : InvitationWrite) : List AcceptedInvitation :=
  match write.accepts with
  | none => w.accepts
  | some (id, now) =>
    match w.db.invitations.get? id with
    | none => w.accepts
    | some row => { id, row, now, seats := countActive db.users row.orgId } :: w.accepts

/-- One step. An event whose transaction is elsewhere, or has to wait, is refused. -/
def invitationStep (rules : SeatRules) (w : InvitationWorld) : InvitationEvent → Except MemberError InvitationWorld
  | .begin call => .ok { w with txs := w.txs.insert { call, snapshot := w.db } }
  | .tick seconds => .ok { w with clock := w.clock + seconds }
  | .lock id => do
    let tx ← found (w.txs.get? id) .crashed
    match tx.phase with
    | .begun => lockStep w id tx
    | _ => .error .crashed
  | .check id => do
    let tx ← found (w.txs.get? id) .crashed
    match tx.phase with
    | .locked orgId => checkStep rules w id tx orgId
    | _ => .error .crashed
  | .write id => do
    let tx ← found (w.txs.get? id) .crashed
    writeStep w id tx
  | .commit id => do
    let tx ← found (w.txs.get? id) .crashed
    match tx.phase with
    | .written _ write =>
      let db := write.apply w.db
      .ok { (w.finish id (.ok ())) with db, accepts := w.record db write }
    | _ => .error .crashed
  | .fail id => do
    let tx ← found (w.txs.get? id) .crashed
    match tx.phase with
    | .done _ => .error .crashed
    | _ => .ok (w.finish id (.error .crashed))

end BetterDecision
