import BetterDecision.Lib.Runs
import BetterDecision.Lib.Table

/-!
# Owners of an organisation

The four calls that can take an active owner away: `remove_member`, `update_member`,
`merge_users` and `delete_user`. Each is one transaction. Its plain reads see the
snapshot that the read of the signed-in user fixed (`begin`); it decides on them and
writes one `users` row, which it then holds (`write`); and the router commits.

The guards are translated in the source's order. What the calls do to other tables,
and the columns of `users` that no guard here or in `Invitations` reads, are left out.
-/

namespace BetterDecision

inductive Role
  | owner
  | admin
  | member
  deriving DecidableEq, Repr

structure User where
  orgId : Nat
  username : String := ""
  email : String := ""
  role : Role := .member
  isActive : Bool := true
  isSuperadmin : Bool := false
  deriving DecidableEq, Repr

/-- What the services of members and invitations raise: the text, and the code a router
branches on. -/
inductive MemberError
  | notFound (resource : String)
  | validation (detail : String)
  | conflict (detail : String) (code : Option String)
  /-- `InvitationUnavailable`. -/
  | unavailable
  /-- `InvitationQuotaExceeded`. -/
  | quotaExceeded
  /-- `get_current_user` turned the request away. -/
  | unauthorized
  /-- The row an ORM write names is gone. -/
  | staleData
  /-- The database, or the process. -/
  | crashed
  deriving DecidableEq, Repr

def codeTargetIsSelf : String := "self_removal"
def codeTargetIsPlatformSuperadmin : String := "target_is_platform_superadmin"
def codeOwnerRemovalRequiresOwner : String := "owner_removal_requires_owner"
def codeLastActiveOwner : String := "last_active_owner"
def codeTargetIsSuperadmin : String := "target_is_superadmin"
def codeUserIsSuperadmin : String := "user_is_superadmin"
def codeUserStillActive : String := "user_still_active"
def codeUserIsSelf : String := "user_is_self"

/-- `role == OWNER` and `is_active`. -/
def User.isActiveOwner (orgId : Nat) (u : User) : Bool := u.orgId == orgId && u.role == .owner && u.isActive

/-- The ids of an org's active owners. -/
def activeOwners (users : Table User) (orgId : Nat) : List Nat :=
  (users.select (fun _ u => u.isActiveOwner orgId)).map Prod.fst

/-- What a call writes to one row: the columns that change, or the row's deletion. -/
inductive UserWrite
  | update (id : Nat) (role : Option Role) (isActive : Option Bool)
  | delete (id : Nat)
  deriving DecidableEq, Repr

def UserWrite.row : UserWrite → Nat
  | .update id _ _ => id
  | .delete id => id

def UserWrite.apply (users : Table User) : UserWrite → Table User
  | .update id role isActive =>
    users.modify id (fun u => { u with role := role.getD u.role, isActive := isActive.getD u.isActive })
  | .delete id => users.remove (· == id)

/-! ## The calls, on what they read -/

def loadMember (users : Table User) (orgId userId : Nat) : Except MemberError User :=
  found ((users.get? userId).filter (fun u => u.orgId == orgId)) (.notFound "Member")

def removeMember (users : Table User) (orgId : Nat) (currentUser : Nat × User) (targetUserId : Nat) :
    Except MemberError (Option UserWrite) := do
  refuse (targetUserId = currentUser.1) (.conflict "You cannot remove yourself" (some codeTargetIsSelf))
  let target ← loadMember users orgId targetUserId
  refuse (target.isSuperadmin)
    (.conflict "This member holds a platform role and cannot be removed from the organization. Contact platform support."
      (some codeTargetIsPlatformSuperadmin))
  if !target.isActive then .ok none
  else do
    refuse (target.role = .owner ∧ currentUser.2.role ≠ .owner)
      (.conflict "Only an owner can remove another owner" (some codeOwnerRemovalRequiresOwner))
    refuse (target.role = .owner ∧ (activeOwners users orgId).length ≤ 1)
      (.conflict "Cannot remove the last owner of the organization" (some codeLastActiveOwner))
    .ok (some (.update targetUserId none (some false)))

def updateMember (users : Table User) (orgId userId actorId : Nat) (role : Option Role) (isActive : Option Bool) :
    Except MemberError (Option UserWrite) := do
  refuse (role = none ∧ isActive = none) (.validation "No fields to update")
  refuse (userId = actorId) (.validation "You cannot modify your own membership here")
  -- every `Role` is assignable here
  let target ← loadMember users orgId userId
  refuse (target.isSuperadmin)
    (.conflict "Cannot modify a platform superadmin via org-member admin" (some codeTargetIsSuperadmin))
  let willBecomeInactive := isActive = some false ∧ target.isActive
  let willBeDemoted := role ≠ none ∧ target.role = .owner ∧ role ≠ some .owner
  refuse ((willBecomeInactive ∨ willBeDemoted) ∧ target.role = .owner ∧ (activeOwners users orgId).length ≤ 1)
    (.conflict "Cannot remove the last active owner of the organization" none)
  let role := role.filter (· ≠ target.role)
  let isActive := isActive.filter (· ≠ target.isActive)
  if role = none ∧ isActive = none then .ok none else .ok (some (.update userId role isActive))

def mergeUsers (users : Table User) (sourceUserId targetUserId : Nat) : Except MemberError (Option UserWrite) := do
  refuse (sourceUserId = targetUserId) (.validation "source and target must be different users")
  let source ← found (users.get? sourceUserId) (.notFound s!"source user {sourceUserId} not found")
  let target ← found (users.get? targetUserId) (.notFound s!"target user {targetUserId} not found")
  refuse (source.orgId ≠ target.orgId)
    (.conflict "cross-org merge is not supported; both users must belong to the same organization" none)
  refuse (source.isSuperadmin ∧ ¬ target.isSuperadmin)
    (.conflict "source user is a superadmin; promote target first or pick a different target" none)
  let others := (activeOwners users source.orgId).filter (· ≠ sourceUserId)
  let targetPreservesInvariant := target.isActiveOwner source.orgId
  refuse (source.role = .owner ∧ source.isActive ∧ others.length = 0 ∧ ¬ targetPreservesInvariant)
    (.conflict s!"Cannot merge: source is the only active owner of org {source.orgId}. Promote another user to owner in that org first, then retry."
      none)
  .ok (some (.delete sourceUserId))

def deleteUser (users : Table User) (targetUserId actorUserId : Nat) : Except MemberError (Option UserWrite) := do
  let target ← found (users.get? targetUserId) (.notFound s!"User {targetUserId}")
  refuse (targetUserId = actorUserId)
    (.conflict "You cannot delete your own user via this endpoint" (some codeUserIsSelf))
  refuse (target.isSuperadmin)
    (.conflict "Cannot delete a platform superadmin via this endpoint" (some codeUserIsSuperadmin))
  refuse (target.isActive)
    (.conflict "Target user must be deactivated before deletion. Deactivate them first via the org members page."
      (some codeUserStillActive))
  .ok (some (.delete targetUserId))

inductive MemberCall
  | removeMember (orgId actorId targetUserId : Nat)
  | updateMember (orgId actorId userId : Nat) (role : Option Role) (isActive : Option Bool)
  | mergeUsers (actorId sourceUserId targetUserId : Nat)
  | deleteUser (actorId targetUserId : Nat)
  deriving DecidableEq, Repr

def MemberCall.actorId : MemberCall → Nat
  | .removeMember _ actorId _ => actorId
  | .updateMember _ actorId _ _ _ => actorId
  | .mergeUsers actorId _ _ => actorId
  | .deleteUser actorId _ => actorId

/-- The signed-in user, who has to be active. -/
def currentUser (users : Table User) (actorId : Nat) : Except MemberError (Nat × User) :=
  (found ((users.get? actorId).filter (·.isActive)) .unauthorized).map (fun actor => (actorId, actor))

/-- What a call decides to write, on the users it reads. -/
def MemberCall.plan (users : Table User) (call : MemberCall) : Except MemberError (Option UserWrite) := do
  let actor ← currentUser users call.actorId
  match call with
  | .removeMember orgId _ targetUserId => BetterDecision.removeMember users orgId actor targetUserId
  | .updateMember orgId _ userId role isActive => BetterDecision.updateMember users orgId userId actor.1 role isActive
  | .mergeUsers _ sourceUserId targetUserId => BetterDecision.mergeUsers users sourceUserId targetUserId
  | .deleteUser _ targetUserId => BetterDecision.deleteUser users targetUserId actor.1

/-! ## The transactions -/

inductive MemberPhase
  | reading
  /-- The row is written, and held until the commit. -/
  | written (write : UserWrite)
  | done (outcome : Except MemberError Unit)

/-- The row a transaction holds. -/
def MemberPhase.row : MemberPhase → Option Nat
  | .written write => some write.row
  | _ => none

structure MemberTx where
  call : MemberCall
  snapshot : Table User
  phase : MemberPhase := .reading

structure MemberWorld where
  /-- The committed rows. -/
  users : Table User
  txs : Table MemberTx := .empty

inductive MemberEvent
  | begin (call : MemberCall)
  | write (tx : Nat)
  | commit (tx : Nat)
  /-- The transaction is rolled back. -/
  | fail (tx : Nat)
  deriving DecidableEq, Repr

def MemberWorld.goto (w : MemberWorld) (id : Nat) (phase : MemberPhase) : MemberWorld :=
  { w with txs := w.txs.modify id (fun tx => { tx with phase }) }

/-- A transaction not committed has written the row. -/
def MemberWorld.Held (w : MemberWorld) (row : Nat) : Prop :=
  ∃ q ∈ w.txs.rows, q.2.phase.row = some row

instance (w : MemberWorld) (row : Nat) : Decidable (w.Held row) :=
  inferInstanceAs (Decidable (∃ q ∈ w.txs.rows, q.2.phase.row = some row))

/-- The write itself. An ORM update of a row that is gone fails, a delete of it does not. -/
def writeRow (w : MemberWorld) (id : Nat) (write : UserWrite) : Except MemberError MemberWorld :=
  match write with
  | .update row _ _ =>
    if (w.users.get? row).isSome then .ok (w.goto id (.written write)) else .ok (w.goto id (.done (.error .staleData)))
  | .delete _ => .ok (w.goto id (.written write))

/-- One step. An event whose transaction is elsewhere, or has to wait, is refused. -/
def memberStep (w : MemberWorld) : MemberEvent → Except MemberError MemberWorld
  | .begin call => .ok { w with txs := w.txs.insert { call, snapshot := w.users } }
  | .write id => do
    let tx ← found (w.txs.get? id) .crashed
    match tx.phase with
    | .reading =>
      match tx.call.plan tx.snapshot with
      | .error e => .ok (w.goto id (.done (.error e)))
      | .ok none => .ok (w.goto id (.done (.ok ())))
      | .ok (some write) => do
        refuse (w.Held write.row) .crashed
        writeRow w id write
    | _ => .error .crashed
  | .commit id => do
    let tx ← found (w.txs.get? id) .crashed
    match tx.phase with
    | .written write => .ok { (w.goto id (.done (.ok ()))) with users := write.apply w.users }
    | _ => .error .crashed
  | .fail id => do
    let tx ← found (w.txs.get? id) .crashed
    match tx.phase with
    | .done _ => .error .crashed
    | _ => .ok (w.goto id (.done (.error .crashed)))

end BetterDecision
