import BetterDecision.Lib.Runs
import BetterDecision.Lib.Table

/-!
# OAuth grants

One grant is one row of `api_tokens`. Four operations write it: `_exchange`,
`_refresh`, the revoke of the router, and its downgrade of the scope. Each is a
transaction, cut at its statements. A plain read sees the snapshot fixed at `begin`;
a locking read and an `UPDATE` see the committed row, and wait while another
transaction holds it. `rowLocks` says whether `FOR UPDATE` takes the row: it does on
MySQL, and is ignored on SQLite, where the guards of the updates stand alone.

What the token endpoint checks outside the row is in the forms: whether the request
is complete, within its rate limits and for this resource (`admitted`), and what
`_owner_ok` says. The access token is left out: these operations never read it.
-/

namespace BetterDecision

inductive AgentScope
  | read
  | write
  | auto
  deriving DecidableEq, Repr

/-- `AGENT_SCOPE_RANK`. -/
def AgentScope.rank : AgentScope → Nat
  | .read => 1
  | .write => 2
  | .auto => 3

def AgentScope.value : AgentScope → String
  | .read => "agent:read"
  | .write => "agent:write"
  | .auto => "agent:auto"

/-- OAuth never grants `agent:auto`. -/
def oauthScopes : List AgentScope := [.read, .write]

inductive OAuthError
  /-- Incomplete, over a rate limit, or for another resource. -/
  | notAdmitted
  | invalidScope
  | invalidGrant
  | notFound
  | scopeNotDownward
  | crashed
  deriving DecidableEq, Repr

/-- The highest known scope asked for: `oauthScopes` lists them by rank. `parts` is the
raw value, split. -/
def parseScope (parts : List String) : Except OAuthError (Option AgentScope) :=
  if AgentScope.auto.value ∈ parts then .error .invalidScope
  else .ok ((oauthScopes.filter (·.value ∈ parts)).getLast?)

/-- Keyed digests of tokens. The candidates of a token also have the digest under the
previous key. -/
structure TokenHashes where
  hashApiToken : String → String
  tokenHashCandidates : String → List String
  primary : ∀ t, hashApiToken t ∈ tokenHashCandidates t
  /-- They do not collide. -/
  apart : ∀ t t' h, h ∈ tokenHashCandidates t → h ∈ tokenHashCandidates t' → t = t'

/-- The other functions the endpoint calls. -/
structure OAuthEnv extends TokenHashes where
  clientRef : String → String
  sha256Hex : String → String
  s256 : String → String
  /-- `VERIFIER_RE.fullmatch`. -/
  isVerifier : String → Bool
  /-- `_hex_of_cimd_row`, for this grant's client. -/
  hexOfCimdRow : String → Bool

structure ApiToken where
  scope : AgentScope
  createdAt : Int
  expiresAt : Int
  revokedAt : Option Int := none
  oauthClientId : String
  refreshHash : Option String := none
  refreshPrevHash : Option String := none
  refreshExpiresAt : Option Int := none
  codeHash : Option String := none
  codeChallenge : Option String := none
  codeRedirectHash : Option String := none
  deriving DecidableEq, Repr

/-- Seconds. -/
def accessTtl : Int := 3600
def refreshTtl : Int := 30 * 86400
def refreshMax : Int := 90 * 86400
def oauthCodeTtl : Int := 60

def refreshExpiry (createdAt now : Int) : Int := min (now + refreshTtl) (createdAt + refreshMax)

/-- The row `create_oauth_grant` inserts. -/
def createOauthGrant (env : OAuthEnv) (now : Int) (clientId : String) (scope : AgentScope)
    (code codeChallenge redirectUri : String) : ApiToken :=
  { scope, createdAt := now, expiresAt := now + oauthCodeTtl, oauthClientId := clientId
    codeHash := some (env.hashApiToken code), codeChallenge := some codeChallenge
    codeRedirectHash := some (env.sha256Hex redirectUri) }

/-- `token_status(row) == "active"`. -/
def ApiToken.isActive (row : ApiToken) (now : Int) : Bool :=
  row.revokedAt.isNone && (decide (now < row.expiresAt) || row.refreshExpiresAt.any (fun e => decide (now < e)))

structure ExchangeForm where
  code : String
  clientId : String
  redirectUri : String
  codeVerifier : String
  admitted : Bool := true
  ownerOk : Bool := true

structure RefreshForm where
  refreshToken : String
  clientId : Option String := none
  scope : List String := []
  admitted : Bool := true
  ownerOk : Bool := true

inductive GrantCall
  | exchange (form : ExchangeForm)
  | refresh (form : RefreshForm)
  | revoke
  | downgrade (scope : AgentScope)

/-- `_tokens`. -/
structure TokenResponse where
  refreshToken : String
  scope : AgentScope
  deriving DecidableEq, Repr

/-- What an `UPDATE` sets. -/
inductive GrantWrite
  | redeem (now : Int) (refreshHash : String) (createdAt : Int)
  | rotate (now : Int) (refreshHash matched : String) (createdAt : Int) (narrowed : Option AgentScope)
  | revoke (now : Int)
  | downgrade (scope : AgentScope)
  /-- No row matched. -/
  | nothing
  deriving DecidableEq, Repr

def GrantWrite.apply (row : ApiToken) : GrantWrite → ApiToken
  | .redeem now refreshHash createdAt =>
    { row with expiresAt := now + accessTtl, refreshHash := some refreshHash
               refreshExpiresAt := some (refreshExpiry createdAt now) }
  | .rotate now refreshHash matched createdAt narrowed =>
    { row with expiresAt := now + accessTtl, refreshPrevHash := some matched, refreshHash := some refreshHash
               refreshExpiresAt := some (refreshExpiry createdAt now), scope := narrowed.getD row.scope }
  | .revoke now => { row with revokedAt := some now }
  | .downgrade scope => { row with scope }
  | .nothing => row

abbrev GrantOutcome := Except OAuthError (Option TokenResponse)

inductive GrantPhase
  | begun
  /-- An exchange past its plain read. -/
  | exchanging (scope : AgentScope) (createdAt : Int)
  /-- A refresh whose plain lookup found the row. -/
  | found
  /-- A refresh past its locking read: the current hash matched. -/
  | matched (hash : String) (now : Int) (scope : AgentScope) (createdAt : Int)
  /-- Its update hit no row. -/
  | lost (hash : String)
  /-- Reuse: the grant is to be revoked. -/
  | revoking (locked : Bool)
  /-- A revoke or a downgrade past its plain read. -/
  | stamping
  | downgrading (scope : AgentScope)
  | written (write : GrantWrite) (outcome : GrantOutcome)
  | done (outcome : GrantOutcome)

/-- It has read the row for update. -/
def GrantPhase.locks : GrantPhase → Bool
  | .matched _ _ _ _ => true
  | .lost _ => true
  | .revoking locked => locked
  | _ => false

/-- It has written the row. -/
def GrantPhase.isWritten : GrantPhase → Bool
  | .written _ _ => true
  | _ => false

structure GrantTx where
  call : GrantCall
  snapshot : ApiToken
  phase : GrantPhase := .begun

structure GrantWorld where
  clock : Int
  /-- The committed row. -/
  row : ApiToken
  txs : Table GrantTx := .empty
  /-- History: the refresh tokens handed out, newest first. -/
  issued : List String := []
  /-- History: the refresh tokens rotated, newest first. -/
  rotated : List String := []
  /-- History: the exchanges that handed out tokens. -/
  redeemed : Nat := 0

inductive GrantEvent
  | begin (call : GrantCall)
  /-- The plain read of the row. -/
  | read (tx : Nat)
  /-- The read for update. -/
  | lock (tx : Nat)
  /-- The update that hands out tokens. `new` is the refresh token drawn. -/
  | update (tx : Nat) (new : String)
  /-- The update of a revoke, or of a downgrade. -/
  | stamp (tx : Nat)
  | commit (tx : Nat)
  /-- The transaction is rolled back. -/
  | fail (tx : Nat)
  | tick (seconds : Nat)

/-! ## Steps -/

section Steps

variable (env : OAuthEnv) (rowLocks : Bool)

def GrantWorld.goto (w : GrantWorld) (id : Nat) (phase : GrantPhase) : GrantWorld :=
  { w with txs := w.txs.modify id (fun tx => { tx with phase }) }

/-- Another transaction holds the row. -/
def GrantWorld.Held (w : GrantWorld) (id : Nat) : Prop :=
  ∃ q ∈ w.txs.rows, q.1 ≠ id ∧ (q.2.phase.isWritten || rowLocks && q.2.phase.locks) = true

instance GrantWorld.decidableHeld (w : GrantWorld) (id : Nat) : Decidable (w.Held rowLocks id) :=
  inferInstanceAs (Decidable (∃ q ∈ w.txs.rows, _ ∧ _))

/-- The form names this grant's code, and shows its client, redirect and verifier. -/
def rightForm (row : ApiToken) (form : ExchangeForm) : Bool :=
  env.clientRef form.clientId == row.oauthClientId &&
    env.sha256Hex form.redirectUri == row.codeRedirectHash.getD "" &&
    env.isVerifier form.codeVerifier && env.s256 form.codeVerifier == row.codeChallenge.getD "" &&
    !env.hexOfCimdRow form.clientId

/-- `_exchange`, up to its update. -/
def readExchange (row : ApiToken) (form : ExchangeForm) : GrantPhase :=
  if !form.admitted then .done (.error .notAdmitted)
  else if row.codeHash ≠ some (env.hashApiToken form.code) then .done (.error .invalidGrant)
  else if !rightForm env row form then .done (.error .invalidGrant)
  else if row.refreshHash.isSome then .revoking false
  else if !form.ownerOk then .done (.error .invalidGrant)
  else .exchanging row.scope row.createdAt

/-- One of the two hashes stored is the token's. -/
def isCandidate (hash : Option String) (token : String) : Bool :=
  hash.any (fun h => decide (h ∈ env.tokenHashCandidates token))

/-- `_refresh`: the plain lookup. -/
def readRefresh (row : ApiToken) (form : RefreshForm) : GrantPhase :=
  if !form.admitted then .done (.error .notAdmitted)
  else
    match parseScope form.scope with
    | .error e => .done (.error e)
    | .ok _ =>
      if isCandidate env row.refreshHash form.refreshToken || isCandidate env row.refreshPrevHash form.refreshToken then
        .found
      else .done (.error .invalidGrant)

/-- `_refresh`: the read for update and the checks on it. -/
def lockRefresh (row : ApiToken) (form : RefreshForm) (now : Int) : GrantPhase :=
  match row.refreshHash.filter (fun h => decide (h ∈ env.tokenHashCandidates form.refreshToken)) with
  | some hash =>
    if form.clientId.any (fun c => env.clientRef c != row.oauthClientId || env.hexOfCimdRow c) then
      .done (.error .invalidGrant)
    else if row.revokedAt.isSome || !(row.refreshExpiresAt.any (fun e => decide (now < e))) then
      .done (.error .invalidGrant)
    else if !form.ownerOk then .done (.error .invalidGrant)
    else .matched hash now row.scope row.createdAt
  | none =>
    if isCandidate env row.refreshPrevHash form.refreshToken then .revoking true
    -- rotated twice since the plain read
    else .done (.error .invalidGrant)

/-- The scope asked for, if it is narrower than the grant's. -/
def narrowedScope (asked : Option AgentScope) (current : AgentScope) : Option AgentScope :=
  asked.filter (fun s => s.rank < current.rank)

def askedScope (form : RefreshForm) : Option AgentScope :=
  match parseScope form.scope with
  | .ok asked => asked
  | .error _ => none

/-- The guarded update of an exchange. -/
def updateExchange (row : ApiToken) (form : ExchangeForm) (now : Int) (scope : AgentScope) (createdAt : Int)
    (new : String) : GrantPhase :=
  if row.codeHash = some (env.hashApiToken form.code) ∧ row.refreshHash = none ∧ row.revokedAt = none ∧
      now < row.expiresAt then
    .written (.redeem now (env.hashApiToken new) createdAt) (.ok (some { refreshToken := new, scope }))
  else .done (.error .invalidGrant)

/-- The guarded update of a refresh. -/
def updateRefresh (row : ApiToken) (form : RefreshForm) (hash : String) (now : Int) (scope : AgentScope)
    (createdAt : Int) (new : String) : GrantPhase :=
  let narrowed := narrowedScope (askedScope form) scope
  if row.refreshHash = some hash ∧ row.revokedAt = none ∧ row.scope = scope then
    .written (.rotate now (env.hashApiToken new) hash createdAt narrowed)
      (.ok (some { refreshToken := new, scope := narrowed.getD scope }))
  else .lost hash

/-- The read for update that tells a lost race from a revoke or a downgrade. -/
def relock (row : ApiToken) (hash : String) : GrantPhase :=
  if row.refreshHash = some hash then .done (.error .invalidGrant) else .revoking true

def GrantWorld.waitAndGoto (w : GrantWorld) (id : Nat) (phase : GrantPhase) : Except OAuthError GrantWorld := do
  refuse (w.Held rowLocks id) .crashed
  .ok (w.goto id phase)

/-- The refresh token a commit takes out of use. -/
def GrantWrite.rotates (call : GrantCall) : GrantWrite → List String
  | .rotate _ _ _ _ _ => match call with
    | .refresh form => [form.refreshToken]
    | _ => []
  | _ => []

/-- It hands out the tokens of the code. -/
def GrantWrite.redeems : GrantWrite → Nat
  | .redeem _ _ _ => 1
  | _ => 0

/-- The refresh token a response holds. -/
def handedOut : GrantOutcome → List String
  | .ok (some response) => [response.refreshToken]
  | _ => []

/-- One step. An event whose transaction is elsewhere, or has to wait, is refused. -/
def grantStep (w : GrantWorld) : GrantEvent → Except OAuthError GrantWorld
  | .begin call => .ok { w with txs := w.txs.insert { call, snapshot := w.row } }
  | .tick seconds => .ok { w with clock := w.clock + seconds }
  | .read id => do
    let tx ← found (w.txs.get? id) .crashed
    match tx.phase, tx.call with
    | .begun, .exchange form => .ok (w.goto id (readExchange env tx.snapshot form))
    | .begun, .refresh form => .ok (w.goto id (readRefresh env tx.snapshot form))
    | .begun, .revoke =>
      .ok (w.goto id (if tx.snapshot.revokedAt.isSome then .done (.error .notFound) else .stamping))
    | .begun, .downgrade scope =>
      .ok (w.goto id
        (if !tx.snapshot.isActive w.clock then .done (.error .notFound)
        else if tx.snapshot.scope.rank ≤ scope.rank then .done (.error .scopeNotDownward)
        else .downgrading scope))
    | _, _ => .error .crashed
  | .lock id => do
    let tx ← found (w.txs.get? id) .crashed
    match tx.phase, tx.call with
    | .found, .refresh form => w.waitAndGoto rowLocks id (lockRefresh env w.row form w.clock)
    | .lost hash, .refresh _ => w.waitAndGoto rowLocks id (relock w.row hash)
    | _, _ => .error .crashed
  | .update id new => do
    let tx ← found (w.txs.get? id) .crashed
    match tx.phase, tx.call with
    | .exchanging scope createdAt, .exchange form =>
      w.waitAndGoto rowLocks id (updateExchange env w.row form w.clock scope createdAt new)
    | .matched hash now scope createdAt, .refresh form =>
      w.waitAndGoto rowLocks id (updateRefresh env w.row form hash now scope createdAt new)
    | _, _ => .error .crashed
  | .stamp id => do
    let tx ← found (w.txs.get? id) .crashed
    match tx.phase with
    | .revoking _ =>
      w.waitAndGoto rowLocks id
        (.written (if w.row.revokedAt = none then .revoke w.clock else .nothing) (.error .invalidGrant))
    | .stamping => w.waitAndGoto rowLocks id (.written (.revoke w.clock) (.ok none))
    | .downgrading scope => w.waitAndGoto rowLocks id (.written (.downgrade scope) (.ok none))
    | _ => .error .crashed
  | .commit id => do
    let tx ← found (w.txs.get? id) .crashed
    match tx.phase with
    | .written write outcome =>
      .ok { (w.goto id (.done outcome)) with
        row := write.apply w.row
        issued := handedOut outcome ++ w.issued
        rotated := write.rotates tx.call ++ w.rotated
        redeemed := w.redeemed + write.redeems }
    | _ => .error .crashed
  | .fail id => do
    let tx ← found (w.txs.get? id) .crashed
    match tx.phase with
    | .done _ => .error .crashed
    | _ => .ok (w.goto id (.done (.error .crashed)))

end Steps

end BetterDecision
