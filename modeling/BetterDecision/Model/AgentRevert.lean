import BetterDecision.Model.AgentActions

/-!
# Reverting an agent write

`inverse_args` and `revert_action`, over the write tools as `route_tool` makes them: a
preview that lists every field sent whose value differs from the row's, and a handler that
writes the fields sent. A row is its columns, in the form a preview states them, and the
arguments are an object: of two entries under one key the first counts.

`W` is everything else a tool looks at. The gates and limits of a call, and the size of what
it stores, refuse it as they like.
-/

namespace BetterDecision

/-- A value as a preview states it: text that a user wrote is wrapped. -/
inductive Disclosed (J : Type)
  | plain (value : J)
  | untrusted (value : J)
  deriving DecidableEq, Repr

/-- `unwrap_untrusted`. -/
def Disclosed.unwrap {J : Type} : Disclosed J → J
  | .plain value => value
  | .untrusted value => value

structure RowChange (J : Type) where
  entity : String
  id : Disclosed J
  field : String
  before : Disclosed J
  after : Disclosed J
  deriving DecidableEq, Repr

abbrev ToolArgs (J : Type) := List (String × J)

abbrev ToolRow (J : Type) := String → J

/-- The rows of a tool's table, under their ids, and the rest. -/
structure ToolWorld (J W : Type) where
  rows : J → Option (ToolRow J)
  rest : W

/-- A write tool on one row, as `route_tool` makes it. -/
structure WriteTool (J W : Type) where
  name : String
  risk : ToolRisk := .write
  /-- The table, the id in the path, and the fields of the body. -/
  entity : String
  idName : String
  fields : List String
  /-- The normal form the route gives a field, if it takes the value. -/
  normalise : String → J → Option J
  /-- What the models ask of the arguments as a whole. -/
  accepts : ToolArgs J → Bool := fun _ => true
  /-- The column is one of text that users write, and the value is text. -/
  isUntrusted : String → J → Bool := fun _ _ => false
  check : W → ToolRow J → ToolArgs J → Except HookFailure Unit := fun _ _ _ => .ok ()
  /-- The rows that `present` adds, and its `not_revertible`. -/
  present : W → ToolRow J → ToolArgs J → List (RowChange J) → Except HookFailure (List (RowChange J) × Option String) :=
    fun _ _ _ _ => .ok ([], none)
  idName_notMem : idName ∉ fields
  /-- A normal form is one for good. -/
  normalise_normal : ∀ f v v', normalise f v = some v' → normalise f v' = some v'
  /-- `present` adds other rows. -/
  present_others : ∀ w row args changes derived reason, present w row args changes = .ok (derived, reason) →
    ∀ c ∈ derived, ∀ p ∈ changes, ¬ (c.entity = p.entity ∧ c.id = p.id)

/-- The other functions a call goes through. -/
structure RevertEnv (J W : Type) where
  /-- The gates, the limits and the ceiling. -/
  admits : ToolWorld J W → WriteTool J W → Except ToolError Unit
  /-- The sizes of the arguments and of the preview. -/
  fits : ToolArgs J → List (RowChange J) → Except ToolError Unit
  /-- `_summarised` shows a change of another table. -/
  shown : List (RowChange J) → RowChange J → Bool
  fingerprint : String → ToolArgs J → List (RowChange J) → String

structure StoredAction (J : Type) where
  orgId : Nat
  userId : Nat
  tool : String
  risk : ActionRisk
  argsJson : ToolArgs J
  fingerprint : String
  changes : List (RowChange J)
  notRevertible : Option String
  status : ActionStatus := .pending
  /-- `context["reverts"]`. -/
  reverts : Option Nat := none
  deriving DecidableEq, Repr

section Revert

variable {J W : Type} [DecidableEq J] (env : RevertEnv J W)

/-! ## A tool -/

section Tool

variable (tool : WriteTool J W)

/-- `args.model_validate`: unknown keys are refused, every value is brought to its normal
form. -/
def WriteTool.modelValidate (raw : ToolArgs J) : Option (ToolArgs J) := do
  guard (raw.all (fun p => p.1 == tool.idName || tool.fields.contains p.1))
  guard (raw.lookup tool.idName).isSome
  let args ← raw.mapM (fun p => (tool.normalise p.1 p.2).map (fun v => (p.1, v)))
  guard (tool.accepts args)
  some args

/-- `_disclose`. -/
def WriteTool.disclose (field : String) (value : J) : Disclosed J :=
  if tool.isUntrusted field value then .untrusted value else .plain value

/-- The changes of the row itself. -/
def WriteTool.rowChanges (id : J) (row : ToolRow J) (args : ToolArgs J) : List (RowChange J) :=
  tool.fields.filterMap (fun f => (args.lookup f).bind (fun value =>
    let before := tool.disclose f (row f)
    let after := tool.disclose f value
    if before ≠ after then some { entity := tool.entity, id := .plain id, field := f, before, after } else none))

/-- The row the arguments name. -/
def WriteTool.load (s : ToolWorld J W) (args : ToolArgs J) : Except HookFailure (J × ToolRow J) := do
  let id ← found (args.lookup tool.idName) .exception
  let row ← found (s.rows id) (.refused { code := "not_found", detail := tool.entity })
  .ok (id, row)

/-- `_templated_preview`: the changes, and the reason not to revert them. -/
def WriteTool.previewOf (s : ToolWorld J W) (args : ToolArgs J) :
    Except HookFailure (List (RowChange J) × Option String) := do
  let (id, row) ← tool.load s args
  tool.check s.rest row args
  let changes := tool.rowChanges id row args
  refuse (changes = []) (.refused { code := "no_change" })
  let (derived, reason) ← tool.present s.rest row args changes
  .ok (changes ++ derived, reason)

/-- The row, with the fields that were sent. -/
def WriteTool.written (row : ToolRow J) (args : ToolArgs J) : ToolRow J :=
  fun f => if f ∈ tool.fields then (args.lookup f).getD (row f) else row f

def WriteTool.execute (s : ToolWorld J W) (args : ToolArgs J) : Except HookFailure (ToolWorld J W) := do
  let (id, row) ← tool.load s args
  .ok { s with rows := fun i => if i = id then some (tool.written row args) else s.rows i }

end Tool

/-! ## Staging and confirming -/

/-- `call_mapped`: an exception is opaque. -/
def callMapped {α : Type} : Except HookFailure α → Except ToolError α
  | .ok a => .ok a
  | .error (.refused error) => .error error
  | .error .exception => .error { code := "internal_error", detail := "the tool failed" }

/-- `invoke` of a write tool, in the app: validate, admit, preview, store. -/
def stageWrite (tool : WriteTool J W) (s : ToolWorld J W) (userId orgId : Nat) (raw : ToolArgs J)
    (reverts : Option Nat) : Except ToolError (StoredAction J) := do
  let args ← found (tool.modelValidate raw) { code := "invalid_arguments" }
  env.admits s tool
  let (changes, notRevertible) ← callMapped (tool.previewOf s args)
  env.fits args changes
  let risk ← found tool.risk.toAction { code := "internal_error", detail := "the tool failed" }
  -- a summary keeps every row of the primary table
  .ok { orgId, userId, tool := tool.name, risk, argsJson := args, notRevertible, reverts
        fingerprint := env.fingerprint tool.name args changes
        changes := changes.filter (fun c => c.entity == tool.entity || env.shown changes c) }

/-- `confirm` of a staged write: it runs if the preview is still the one that was staged. -/
def confirmWrite (tool : WriteTool J W) (s : ToolWorld J W) (action : StoredAction J) :
    Except ToolError (ToolWorld J W) := do
  env.admits s tool
  let args ← found (tool.modelValidate action.argsJson)
    { code := "invalid_arguments", detail := "stored arguments no longer validate" }
  let (changes, _) ← callMapped (tool.previewOf s args)
  refuse (env.fingerprint action.tool action.argsJson changes ≠ action.fingerprint)
    { code := "preview_stale", detail := "the data changed since the preview" }
  callMapped (tool.execute s args)

/-! ## Reverting -/

def notRevertibleError (detail : String) : ToolError := { code := "not_revertible", detail }

/-- `{**args_json, **restore}`. -/
def overlayArgs (argsJson restore : ToolArgs J) : ToolArgs J :=
  restore ++ argsJson.filter (fun p => (restore.lookup p.1).isNone)

/-- What the changes of the primary row put back; of two changes of a field the later. -/
def restoreOf (primary : RowChange J) (changes : List (RowChange J)) : ToolArgs J :=
  ((changes.filter (fun c => c.entity == primary.entity && c.id == primary.id)).map
    (fun c => (c.field, c.before.unwrap))).reverse

/-- `inverse_args`, of a tool without an inverse of its own. -/
def inverseArgs (tool : WriteTool J W) (action : StoredAction J) : Except ToolError (ToolArgs J) := do
  match action.notRevertible with
  | some reason => .error (notRevertibleError reason)
  | none => .ok ()
  let primary ← found action.changes.head? { code := "internal", detail := "the revert failed" }
  let restore := restoreOf primary action.changes
  refuse (¬ restore.all (fun p => p.1 == tool.idName || tool.fields.contains p.1))
    (notRevertibleError "this action cannot be inverted")
  .ok (overlayArgs action.argsJson restore)

/-- The value a field of the primary table was left with. -/
def expectedAfter (original : List (RowChange J)) (table : String) (c : RowChange J) : Option (Disclosed J) :=
  ((original.filter (fun o => o.entity == table)).reverse.find? (fun o => o.id == c.id && o.field == c.field)).map
    (·.after)

/-- The staged changes that do not start where the original ended. -/
def driftOf (original : List (RowChange J)) (table : String) (staged : List (RowChange J)) : List (RowChange J) :=
  staged.filter (fun c => c.entity == table && (expectedAfter original table c).any (fun after => c.before != after))

def revertDrift : ToolError := { code := "revert_drift", detail := "the data changed since the action ran" }

/-- `revert_action` up to the staged inverse, and what has drifted. The inverse stays
pending either way. -/
def stageRevert (tools : List (WriteTool J W)) (s : ToolWorld J W) (userId orgId : Nat)
    (actions : Table (StoredAction J)) (actionId : Nat) :
    Except ToolError (StoredAction J × List (RowChange J)) := do
  let row ← found ((actions.get? actionId).filter (fun a => a.orgId == orgId && a.userId == userId))
    { code := "action_not_found" }
  refuse (row.status ≠ .done) (notRevertibleError "only an executed action can be reverted")
  refuse (row.risk ≠ .write) (notRevertibleError "only a write can be reverted")
  let tool ← found (tools.find? (·.name == row.tool))
    { code := "tool_retired", detail := "this action's tool is no longer available" }
  refuse (tool.risk ≠ .write) (notRevertibleError "only a write can be reverted")
  let inverse ← inverseArgs tool row
  let staged ← stageWrite env tool s userId orgId inverse (some actionId)
  let primary ← found row.changes.head? { code := "internal", detail := "the revert failed" }
  .ok (staged, driftOf row.changes primary.entity staged.changes)

/-- `revert_action`. -/
def revertAction (tools : List (WriteTool J W)) (s : ToolWorld J W) (userId orgId : Nat)
    (actions : Table (StoredAction J)) (actionId : Nat) : Except ToolError (StoredAction J) := do
  let (staged, drift) ← stageRevert env tools s userId orgId actions actionId
  refuse (drift ≠ []) revertDrift
  .ok staged

end Revert

end BetterDecision
