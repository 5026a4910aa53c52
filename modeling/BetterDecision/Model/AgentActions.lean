import BetterDecision.Lib.Runs
import BetterDecision.Lib.Table
import BetterDecision.Model.Members
import BetterDecision.Model.OAuthGrants

/-!
# Staged agent actions

`propose`, `confirm` and `cancel` of the preview-confirm engine, cut at their commits
and at their reads. A row is decided by conditional updates alone, each a transaction
of its own, and each is one step here; the clock a request compares with is the one it
read before its update. Between two steps of a request anything else may happen.

`J` is JSON, `A` the validated arguments of a tool, `W` everything its hooks and the
gates read. The registry is filled at import, so a request has one. What `execute` does
to the world is any change. The audit row and the machine-readable data of replies are
left out: nothing here reads them back.
-/

namespace BetterDecision

inductive ActionChannel
  | inApp
  | mcp
  deriving DecidableEq, Repr

inductive ToolRisk
  | read
  | write
  | sensitive
  deriving DecidableEq, Repr

inductive ActionRisk
  | write
  | sensitive
  deriving DecidableEq, Repr

/-- `ActionRisk(spec.risk)`. -/
def ToolRisk.toAction : ToolRisk → Option ActionRisk
  | .read => none
  | .write => some .write
  | .sensitive => some .sensitive

inductive ActionMode
  | confirm
  | auto
  deriving DecidableEq, Repr

inductive ActionStatus
  | pending
  | executing
  | done
  | failed
  | stale
  | cancelled
  deriving DecidableEq, Repr

inductive Feature
  | reports
  | plans
  | customDashboard
  | forecast
  | budgets
  deriving DecidableEq, Repr

def Feature.value : Feature → String
  | .reports => "reports"
  | .plans => "plans"
  | .customDashboard => "custom_dashboard"
  | .forecast => "forecast"
  | .budgets => "budgets"

/-- `ROLE_RANK`. -/
def Role.rank : Role → Nat
  | .member => 1
  | .admin => 2
  | .owner => 3

def Role.value : Role → String
  | .member => "member"
  | .admin => "admin"
  | .owner => "owner"

structure ToolError where
  code : String
  detail : String := ""
  deriving DecidableEq, Repr

/-- How a hook fails. -/
inductive HookFailure
  | refused (error : ToolError)
  | exception
  deriving DecidableEq, Repr

structure Preview (J : Type) where
  summary : String
  changes : List J
  warnings : List String := []
  context : List (String × J) := []
  /-- `context["reverts"]`. -/
  reverts : Option Nat := none

structure ToolContext where
  userId : Nat
  role : Role
  orgId : Nat
  channel : ActionChannel
  apiTokenId : Option Nat := none
  scope : Option String := none
  deriving DecidableEq, Repr

structure ToolSpec (J A W : Type) where
  name : String
  risk : ToolRisk
  /-- `product_area` and `extra_areas`. -/
  areas : List Feature := []
  minRole : Role := .member
  modelValidate : J → Option A
  modelDump : A → J
  preview : Option (ToolContext → W → A → Except HookFailure (Preview J))
  hasExecute : Bool := true

def getTool {J A W : Type} (tools : List (ToolSpec J A W)) (name : String) : Option (ToolSpec J A W) :=
  tools.find? (·.name == name)

/-- The other functions the engine calls. -/
structure AgentEnv (J W : Type) where
  /-- `_canonical`: of a value, of a preview, and of what is fingerprinted. -/
  canonical : J → String
  canonicalPreview : Preview J → String
  canonicalAction : String → J → List J → String
  sha256 : String → String
  summarised : Preview J → ToolRisk → Preview J
  /-- `has_feature(org_id, AGENT_FEATURE_KEY)`. -/
  hasFeature : W → Nat → Bool
  resolveFeature : W → Feature → Nat → Bool

structure AgentPendingAction (J : Type) where
  orgId : Nat
  userId : Nat
  channel : ActionChannel
  apiTokenId : Option Nat
  tool : String
  risk : ActionRisk
  mode : ActionMode
  argsJson : J
  fingerprint : String
  previewJson : Preview J
  status : ActionStatus := .pending
  createdAt : Int
  expiresAt : Int
  decidedAt : Option Int := none
  resultJson : Option J := none
  errorCode : Option String := none

/-- Seconds. -/
def pendingTtl : Int := 600
def maxArgsBytes : Nat := 4 * 1024
def maxPreviewBytes : Nat := 16 * 1024
def maxLiveUser : Nat := 10
def maxLiveOrg : Nat := 50

def agentScopes : List String := [AgentScope.read, .write, .auto].map AgentScope.value
def decideScopes : List String := [AgentScope.write, .auto].map AgentScope.value
def agentFeatureKey : String := "ai.agent"

/-! ## What the engine computes -/

section Engine

variable {J A W : Type} (env : AgentEnv J W)

/-- `_is_auto`. -/
def ToolContext.isAuto (ctx : ToolContext) : Bool :=
  ctx.channel == .mcp && ctx.scope == some AgentScope.auto.value

def scopeGate (ctx : ToolContext) (decide : List String) : Except ToolError Unit :=
  let ok := match ctx.channel with
    | .inApp => ctx.scope.isNone
    | .mcp => ctx.scope.any (decide.contains ·) && ctx.apiTokenId.isSome
  refuse (ok = false) { code := "scope_denied", detail := "not a valid agent principal" }

/-- Gates 2 to 5. -/
def checkGates (w : W) (ctx : ToolContext) (spec : ToolSpec J A W) : Except ToolError Unit := do
  refuse (env.hasFeature w ctx.orgId = false) { code := "feature_not_entitled", detail := agentFeatureKey }
  match spec.areas.find? (fun area => !env.resolveFeature w area ctx.orgId) with
  | some area => .error { code := "feature_disabled", detail := area.value }
  | none => .ok ()
  refuse (ctx.role.rank < spec.minRole.rank) { code := "insufficient_role", detail := spec.minRole.value }
  match ctx.channel with
  | .inApp =>
    refuse (ctx.scope ≠ none) { code := "scope_denied", detail := "in-app calls carry no token scope" }
  | .mcp => do
    refuse (ctx.scope.any (agentScopes.contains ·) = false)
      { code := "scope_denied", detail := "agent token scope required" }
    refuse (ctx.scope = some AgentScope.read.value ∧ spec.risk ≠ .read)
      { code := "scope_denied", detail := "agent:read may call read tools only" }

def fingerprint (tool : String) (argsJson : J) (changes : List J) : String :=
  env.sha256 (env.canonicalAction tool argsJson
    (changes.mergeSort (fun a b => decide (env.canonical a ≤ env.canonical b))))

/-- `_new_row`. -/
def newRow (now : Int) (ctx : ToolContext) (spec : ToolSpec J A W) (argsJson : J) (preview : Preview J)
    (mode : ActionMode) : Except HookFailure (AgentPendingAction J) := do
  refuse (maxArgsBytes < (env.canonical argsJson).utf8ByteSize)
    (.refused { code := "payload_too_large", detail := "arguments exceed the size limit" })
  let stored :=
    if maxPreviewBytes < (env.canonicalPreview preview).utf8ByteSize then env.summarised preview spec.risk
    else preview
  refuse (maxPreviewBytes < (env.canonicalPreview stored).utf8ByteSize)
    (.refused { code := "payload_too_large", detail := "preview exceeds the size limit" })
  let risk ← found spec.risk.toAction .exception
  -- the fingerprint covers the changes that a summary leaves out
  .ok { orgId := ctx.orgId, userId := ctx.userId, channel := ctx.channel, apiTokenId := ctx.apiTokenId
        tool := spec.name, risk, mode, argsJson, fingerprint := fingerprint env spec.name argsJson preview.changes
        previewJson := stored, createdAt := now, expiresAt := now + pendingTtl }

/-- `_mine`. -/
def mine (ctx : ToolContext) (row : AgentPendingAction J) : Bool :=
  row.orgId == ctx.orgId && row.userId == ctx.userId &&
    (ctx.channel == .inApp || row.channel == ctx.channel && row.apiTokenId == ctx.apiTokenId)

/-- The `WHERE` of the claim. -/
def claimable (ctx : ToolContext) (now : Int) (row : AgentPendingAction J) : Bool :=
  mine ctx row && row.status == .pending && decide (now < row.expiresAt) &&
    (ctx.channel == .inApp || row.risk != .sensitive)

/-- The `WHERE` of a cancel. -/
def cancellable (ctx : ToolContext) (now : Int) (row : AgentPendingAction J) : Bool :=
  mine ctx row && row.status == .pending && decide (now < row.expiresAt)

def isLive (now : Int) (row : AgentPendingAction J) : Bool :=
  row.status == .pending && decide (now < row.expiresAt)

def tooManyPending : ToolError :=
  { code := "too_many_pending_actions", detail := "cancel or confirm pending actions first" }

def checkCeiling (now : Int) (ctx : ToolContext) (actions : Table (AgentPendingAction J)) : Except ToolError Unit := do
  let live := (actions.select (fun _ row => row.orgId == ctx.orgId && isLive now row)).map Prod.snd
  refuse (maxLiveOrg ≤ live.length) tooManyPending
  refuse (maxLiveUser ≤ (live.filter (·.userId == ctx.userId)).length) tooManyPending

def browserOnly : ToolError :=
  { code := "requires_browser_confirmation"
    detail := "a sensitive action is confirmed by the person in the app, never by an agent" }

/-- `_explain_miss`. -/
def explainMiss (now : Int) (ctx : ToolContext) (row : Option (AgentPendingAction J)) : ToolError :=
  match row.filter (mine ctx) with
  | none => { code := "action_not_found" }
  | some row =>
    if row.status = .pending ∧ row.expiresAt ≤ now then { code := "action_expired" }
    else if row.status = .pending ∧ ctx.channel = .mcp ∧ row.risk = .sensitive then browserOnly
    else if row.status = .executing then { code := "action_in_progress" }
    else { code := "action_already_decided" }

end Engine

/-! ## Requests -/

inductive AgentReply (J : Type)
  /-- A read tool ran: no row. -/
  | read
  | staged (actionId : Nat)
  | done (actionId : Nat) (result : Option J)
  | cancelled (actionId : Nat)

/-- What a confirm holds once it has claimed and read the row. -/
structure ClaimedAction (J : Type) where
  actionId : Nat
  /-- The clock the claim compared with. -/
  now : Int
  row : AgentPendingAction J

/-- What `finish` writes, and what is raised after it. -/
structure Verdict (J : Type) where
  status : ActionStatus
  final : status = .done ∨ status = .failed ∨ status = .stale := by decide
  result : Option J := none
  errorCode : Option String := none
  raised : Option ToolError := none
  fresh : Option (AgentPendingAction J) := none

/-- Where a request is: what it does in its next step. -/
inductive AgentPhase (J A W : Type)
  /-- `_gate_and_run`: the tool, the arguments, the gates. -/
  | proposing (tool : String) (raw : J) (reverts : Option Nat)
  /-- `propose`: the ceiling, the preview, the insert. -/
  | counting (spec : ToolSpec J A W) (args : A) (reverts : Option Nat)
  | drafting (spec : ToolSpec J A W) (args : A) (reverts : Option Nat)
  | staging (spec : ToolSpec J A W) (args : A) (preview : Preview J)
  /-- `confirm`: the checks before the claim, the claim, and a claim that missed. -/
  | confirming (actionId : Nat)
  | claiming (actionId : Nat) (now : Int)
  | missed (actionId : Nat)
  /-- The row is claimed: its read, the release, the gates, the preview, `execute`. -/
  | loading (actionId : Nat) (now : Int)
  | releasing (claimed : ClaimedAction J)
  | gating (claimed : ClaimedAction J)
  | previewing (claimed : ClaimedAction J) (spec : ToolSpec J A W) (args : A)
  | executing (claimed : ClaimedAction J) (spec : ToolSpec J A W) (args : A) (seen : W) (preview : Preview J)
  /-- `finish`, what follows it, and the `finish` of the `finally`. -/
  | finishing (claimed : ClaimedAction J) (verdict : Verdict J)
  | leaving (claimed : ClaimedAction J) (verdict : Verdict J)
  | cleaning (claimed : ClaimedAction J)
  /-- `cancel`: the checks before the update, and the update. -/
  | cancelling (actionId : Nat)
  | withdrawing (actionId : Nat) (now : Int)
  /-- The auto path of `propose` after a refusal: the row must not stay pending. -/
  | retracting (actionId : Nat) (error : ToolError)
  /-- `none`: cut off before it could answer. -/
  | done (outcome : Option (Except ToolError (AgentReply J)))

structure AgentRequest (J A W : Type) where
  ctx : ToolContext
  tools : List (ToolSpec J A W)
  /-- The action an auto proposal has staged and now confirms. -/
  auto : Option Nat := none
  phase : AgentPhase J A W

/-- A call of `execute`. -/
structure Execution (J A W : Type) where
  requestId : Nat
  ctx : ToolContext
  claimed : ClaimedAction J
  spec : ToolSpec J A W
  args : A
  /-- The world its preview was recomputed in, and that preview. -/
  seen : W
  preview : Preview J

structure AgentState (J A W : Type) where
  clock : Int
  world : W
  actions : Table (AgentPendingAction J) := .empty
  requests : Table (AgentRequest J A W) := .empty
  /-- History: every row as it was inserted, and the calls of `execute`. -/
  staged : Table (AgentPendingAction J) := .empty
  executions : List (Execution J A W) := []

/-- How `execute` ended. -/
inductive ExecuteOutcome (J : Type)
  | returned (result : J)
  | failed (failure : HookFailure)
  /-- Something went past its handlers: a cancellation. -/
  | escaped
  | crashed

inductive AgentEvent (J A W : Type)
  | propose (ctx : ToolContext) (tools : List (ToolSpec J A W)) (tool : String) (raw : J) (reverts : Option Nat)
  | confirm (ctx : ToolContext) (tools : List (ToolSpec J A W)) (actionId : Nat)
  | cancel (ctx : ToolContext) (tools : List (ToolSpec J A W)) (actionId : Nat)
  /-- The next step of a request. -/
  | next (request : Nat)
  /-- A limit refuses the request. -/
  | limit (request : Nat) (error : ToolError)
  /-- `execute` runs. -/
  | execute (request : Nat) (outcome : ExecuteOutcome J) (world : W)
  /-- An exception that no handler of the engine takes: a cancellation, a failed commit. -/
  | escape (request : Nat)
  /-- The process dies. -/
  | crash (request : Nat)
  /-- `cancel_staged_actions`: the tokens are revoked. -/
  | revoke (tokenIds : List Nat)
  /-- `ON DELETE SET NULL`. -/
  | deleteToken (tokenId : Nat)
  /-- The purge, a wipe or a cascade. -/
  | deleteRows (actionIds : List Nat)
  | change (world : W)
  | tick (seconds : Nat)

/-! ## Steps -/

section Steps

variable {J A W : Type} (env : AgentEnv J W)

def AgentRequest.goto (r : AgentRequest J A W) (phase : AgentPhase J A W) : AgentRequest J A W := { r with phase }

/-- A `ToolError` raised by `propose`, `confirm` or `cancel`. -/
def AgentRequest.raise (r : AgentRequest J A W) (error : ToolError) : AgentRequest J A W :=
  match r.auto with
  | some actionId => r.goto (.retracting actionId error)
  | none => r.goto (.done (some (.error error)))

def AgentRequest.reply (r : AgentRequest J A W) (reply : AgentReply J) : AgentRequest J A W :=
  r.goto (.done (some (.ok reply)))

/-- `status, error_code, raised = FAILED, …`. -/
def Verdict.ofFailure : HookFailure → Verdict J
  | .refused error => { status := .failed, errorCode := some error.code, raised := some error }
  | .exception =>
    { status := .failed, errorCode := some "internal"
      raised := some { code := "internal", detail := "the action failed" } }

/-- `_gate_and_run`, up to `propose`, and its first checks. -/
def proposeChecks (w : W) (r : AgentRequest J A W) (tool : String) (raw : J) :
    Except ToolError (ToolSpec J A W × A) := do
  let spec ← found (getTool r.tools tool) { code := "unknown_tool", detail := tool }
  let args ← found (spec.modelValidate raw) { code := "invalid_arguments" }
  checkGates env w r.ctx spec
  refuse (spec.risk ≠ .read ∧ r.ctx.channel = .mcp ∧ r.ctx.apiTokenId = none)
    { code := "scope_denied", detail := "agent token required" }
  .ok (spec, args)

/-- `call_mapped(spec.preview, ctx, args)`. A tool without the hook cannot be called. -/
def runPreview (w : W) (ctx : ToolContext) (spec : ToolSpec J A W) (args : A) (reverts : Option Nat) :
    Except HookFailure (Preview J) :=
  match spec.preview with
  | none => .error .exception
  | some hook => (hook ctx w args).map (fun pv => { pv with reverts := reverts <|> pv.reverts })

/-- `auto and spec.risk == "write"`. -/
def proposeMode (ctx : ToolContext) (spec : ToolSpec J A W) : ActionMode :=
  if ctx.isAuto && spec.risk == .write then .auto else .confirm

/-- The gates a confirm runs again, and the stored arguments. -/
def confirmChecks (w : W) (r : AgentRequest J A W) (row : AgentPendingAction J) :
    Except ToolError (ToolSpec J A W × A) := do
  let spec ← found (getTool r.tools row.tool) { code := "tool_retired", detail := row.tool }
  checkGates env w r.ctx spec
  let args ← found (spec.modelValidate row.argsJson)
    { code := "invalid_arguments", detail := "stored arguments no longer validate" }
  .ok (spec, args)

/-- The tool is sensitive now. -/
def isSensitiveNow (r : AgentRequest J A W) (row : AgentPendingAction J) : Bool :=
  r.ctx.channel == .mcp && (getTool r.tools row.tool).any (·.risk == .sensitive)

/-- The preview of a confirm: `execute` is next only if it is the one that was staged. -/
def confirmPreview (w : W) (clock : Int) (r : AgentRequest J A W) (claimed : ClaimedAction J) (spec : ToolSpec J A W)
    (args : A) : AgentPhase J A W :=
  let row := claimed.row
  match runPreview w r.ctx spec args row.previewJson.reverts with
  | .error failure => .finishing claimed (.ofFailure failure)
  | .ok preview =>
    if fingerprint env row.tool row.argsJson preview.changes = row.fingerprint then
      .executing claimed spec args w preview
    else
      match newRow env clock r.ctx spec row.argsJson preview .confirm with
      | .error failure => .finishing claimed (.ofFailure failure)
      | .ok fresh =>
        .finishing claimed
          { status := .stale, errorCode := some "preview_stale", fresh := some fresh
            raised := some { code := "preview_stale", detail := "the data changed since the preview" } }

/-- The `UPDATE … WHERE id = … AND status = 'executing'` of `finish`. -/
def finishRow (verdict : Verdict J) (row : AgentPendingAction J) : AgentPendingAction J :=
  if row.status = .executing then
    { row with status := verdict.status, resultJson := verdict.result, errorCode := verdict.errorCode }
  else row

/-- The release of a claim. -/
def releaseRow (row : AgentPendingAction J) : AgentPendingAction J :=
  if row.status = .executing then { row with status := .pending, decidedAt := none } else row

/-- The update of a cancel. -/
def cancelRow (now : Int) (row : AgentPendingAction J) : AgentPendingAction J :=
  if row.status = .pending then { row with status := .cancelled, decidedAt := some now } else row

def AgentState.goto (s : AgentState J A W) (id : Nat) (r : AgentRequest J A W) : AgentState J A W :=
  { s with requests := s.requests.modify id (fun _ => r) }

def AgentState.update (s : AgentState J A W) (actionId : Nat)
    (f : AgentPendingAction J → AgentPendingAction J) : AgentState J A W :=
  { s with actions := s.actions.modify actionId f }

def AgentState.stage (s : AgentState J A W) (row : AgentPendingAction J) : AgentState J A W :=
  { s with actions := s.actions.insert row, staged := s.staged.insert row }

def AgentState.executed (s : AgentState J A W) (world : W) (execution : Execution J A W) : AgentState J A W :=
  { s with world, executions := execution :: s.executions }

/-- A step that only reads the tables: where it takes the request. -/
def agentRead (s : AgentState J A W) (r : AgentRequest J A W) : Option (AgentRequest J A W) :=
  match r.phase with
  | .proposing tool raw reverts =>
    match proposeChecks env s.world r tool raw with
    | .error error => some (r.raise error)
    | .ok (spec, args) =>
      if spec.risk = .read then some (r.reply .read) else some (r.goto (.counting spec args reverts))
  | .counting spec args reverts =>
    match checkCeiling s.clock r.ctx s.actions with
    | .error error => some (r.raise error)
    | .ok () => some (r.goto (.drafting spec args reverts))
  | .drafting spec args reverts =>
    match runPreview s.world r.ctx spec args reverts with
    | .error (.refused error) => some (r.raise error)
    | .error .exception => some (r.goto (.done none))
    | .ok preview => some (r.goto (.staging spec args preview))
  | .confirming actionId =>
    match scopeGate r.ctx agentScopes with
    | .error error => some (r.raise error)
    | .ok () => some (r.goto (.claiming actionId s.clock))
  | .missed actionId => some (r.raise (explainMiss s.clock r.ctx (s.actions.get? actionId)))
  | .loading actionId now =>
    match s.actions.get? actionId with
    | none => some (r.goto (.done none))
    | some row =>
      let claimed : ClaimedAction J := { actionId, now, row }
      if isSensitiveNow r row then some (r.goto (.releasing claimed)) else some (r.goto (.gating claimed))
  | .gating claimed =>
    match confirmChecks env s.world r claimed.row with
    | .error error => some (r.goto (.finishing claimed (.ofFailure (.refused error))))
    | .ok (spec, args) => some (r.goto (.previewing claimed spec args))
  | .previewing claimed spec args => some (r.goto (confirmPreview env s.world s.clock r claimed spec args))
  | .executing claimed spec _ _ _ =>
    -- without the hook there is nothing to call
    if spec.hasExecute then none else some (r.goto (.finishing claimed (.ofFailure .exception)))
  | .leaving claimed verdict =>
    match verdict.raised with
    | some error => some (r.raise error)
    | none => some (r.reply (.done claimed.actionId verdict.result))
  | .cancelling actionId =>
    match scopeGate r.ctx decideScopes with
    | .error error => some (r.raise error)
    | .ok () => some (r.goto (.withdrawing actionId s.clock))
  | _ => none

/-- A step that writes: one committed transaction. -/
def agentWrite (s : AgentState J A W) (id : Nat) (r : AgentRequest J A W) : Option (AgentState J A W) :=
  match r.phase with
  | .staging spec args preview =>
    let mode := proposeMode r.ctx spec
    match newRow env s.clock r.ctx spec (spec.modelDump args) preview mode with
    | .error (.refused error) => some (s.goto id (r.raise error))
    | .error .exception => some (s.goto id (r.goto (.done none)))
    | .ok row =>
      let actionId := s.actions.next
      let r := match mode with
        | .confirm => r.reply (.staged actionId)
        | .auto => { r with auto := some actionId, phase := .confirming actionId }
      some ((s.stage row).goto id r)
  | .claiming actionId now =>
    if (s.actions.get? actionId).any (claimable r.ctx now) then
      some ((s.update actionId (fun row => { row with status := .executing, decidedAt := some now })).goto id
        (r.goto (.loading actionId now)))
    else some (s.goto id (r.goto (.missed actionId)))
  | .releasing claimed => some ((s.update claimed.actionId releaseRow).goto id (r.raise browserOnly))
  | .finishing claimed verdict =>
    let s := s.update claimed.actionId (finishRow verdict)
    let s := match verdict.fresh with
      | some fresh => s.stage fresh
      | none => s
    some (s.goto id (r.goto (.leaving claimed verdict)))
  | .cleaning claimed =>
    some ((s.update claimed.actionId (finishRow (.ofFailure .exception))).goto id (r.goto (.done none)))
  | .withdrawing actionId now =>
    if (s.actions.get? actionId).any (cancellable r.ctx now) then
      some ((s.update actionId (cancelRow now)).goto id (r.reply (.cancelled actionId)))
    else some (s.goto id (r.goto (.missed actionId)))
  | .retracting actionId error =>
    some ((s.update actionId (cancelRow s.clock)).goto id (r.goto (.done (some (.error error)))))
  | _ => none

/-- Where a request can be over a limit. -/
def AgentPhase.isLimited : AgentPhase J A W → Bool
  | .proposing _ _ _ => true
  | .counting _ _ _ => true
  | .confirming _ => true
  | .cancelling _ => true
  | _ => false

/-- What is left of a request after an exception that its handlers do not take. -/
def AgentPhase.escape : AgentPhase J A W → AgentPhase J A W
  | .gating claimed => .cleaning claimed
  | .previewing claimed _ _ => .cleaning claimed
  | .executing claimed _ _ _ _ => .cleaning claimed
  | .finishing claimed _ => .cleaning claimed
  | .leaving claimed _ => .cleaning claimed
  | _ => .done none

def AgentPhase.isOver : AgentPhase J A W → Bool
  | .done _ => true
  | _ => false

/-- Where `execute` leaves a request. -/
def afterExecute (claimed : ClaimedAction J) : ExecuteOutcome J → AgentPhase J A W
  | .returned result => .finishing claimed { status := .done, result := some result }
  | .failed failure => .finishing claimed (.ofFailure failure)
  | .escaped => .cleaning claimed
  | .crashed => .done none

/-- One step. An event whose request is elsewhere is refused. -/
def agentStep (s : AgentState J A W) : AgentEvent J A W → Except Unit (AgentState J A W)
  | .propose ctx tools tool raw reverts =>
    .ok { s with requests := s.requests.insert { ctx, tools, phase := .proposing tool raw reverts } }
  | .confirm ctx tools actionId =>
    .ok { s with requests := s.requests.insert { ctx, tools, phase := .confirming actionId } }
  | .cancel ctx tools actionId =>
    .ok { s with requests := s.requests.insert { ctx, tools, phase := .cancelling actionId } }
  | .next id => do
    let r ← found (s.requests.get? id) ()
    match agentRead env s r with
    | some r' => .ok (s.goto id r')
    | none => found (agentWrite env s id r) ()
  | .limit id error => do
    let r ← found (s.requests.get? id) ()
    refuse (r.phase.isLimited = false) ()
    .ok (s.goto id (r.raise error))
  | .execute id outcome world => do
    let r ← found (s.requests.get? id) ()
    match r.phase with
    | .executing claimed spec args seen preview => do
      refuse (spec.hasExecute = false) ()
      let execution : Execution J A W := { requestId := id, ctx := r.ctx, claimed, spec, args, seen, preview }
      .ok ((s.executed world execution).goto id (r.goto (afterExecute claimed outcome)))
    | _ => .error ()
  | .escape id => do
    let r ← found (s.requests.get? id) ()
    refuse r.phase.isOver ()
    .ok (s.goto id (r.goto r.phase.escape))
  | .crash id => do
    let r ← found (s.requests.get? id) ()
    refuse r.phase.isOver ()
    .ok (s.goto id (r.goto (.done none)))
  | .revoke tokenIds =>
    .ok { s with actions := s.actions.mapRows (fun _ row =>
      if row.apiTokenId.any (tokenIds.contains ·) then cancelRow s.clock row else row) }
  | .deleteToken tokenId =>
    .ok { s with actions := s.actions.mapRows (fun _ row =>
      if row.apiTokenId = some tokenId then { row with apiTokenId := none } else row) }
  | .deleteRows actionIds => .ok { s with actions := s.actions.remove (actionIds.contains ·) }
  | .change world => .ok { s with world }
  | .tick seconds => .ok { s with clock := s.clock + seconds }

end Steps

end BetterDecision
