import BetterDecision.Proof.AgentJobs
import Mathlib.Data.List.Induction

/-!
# What an agent action runs as

A request carries along, phase by phase, what it has checked of the row it claimed
(`AgentPhase.Checked`), and a row keeps what was staged (`SameAction`). What `execute`
runs with is what the last of the phases says.
-/

namespace BetterDecision

variable {J A W : Type} {env : AgentEnv J W} {s s' : AgentState J A W} {r r' : AgentRequest J A W} {id i : Nat}

/-! ## What is checked -/

/-- A row as it is now, and as it was staged. -/
def SameAction (row a : AgentPendingAction J) : Prop :=
  ∃ status apiTokenId decidedAt resultJson errorCode,
    row = { a with status, apiTokenId, decidedAt, resultJson, errorCode } ∧
      (apiTokenId = a.apiTokenId ∨ apiTokenId = none)

theorem SameAction.refl (a : AgentPendingAction J) : SameAction a a := ⟨_, _, _, _, _, rfl, .inl rfl⟩

/-- The claimer owns the action as it was staged, and claimed it in time. -/
structure Licensed (a : AgentPendingAction J) (ctx : ToolContext) (now : Int) : Prop where
  org : a.orgId = ctx.orgId
  user : a.userId = ctx.userId
  inTime : now < a.expiresAt
  /-- Over MCP, by the token that staged it. -/
  token : ctx.channel = .mcp → a.channel = .mcp ∧ ∃ t, ctx.apiTokenId = some t ∧ a.apiTokenId = some t
  notSensitive : ctx.channel = .mcp → a.risk ≠ .sensitive

/-- The row a confirm has read is the one it claimed. -/
structure Loaded (a : AgentPendingAction J) (r : AgentRequest J A W) (claimed : ClaimedAction J) : Prop where
  licensed : Licensed a r.ctx claimed.now
  same : SameAction claimed.row a
  toolNow : isSensitiveNow r claimed.row = false

/-- The tool it runs, and with what. -/
structure Gated (a : AgentPendingAction J) (r : AgentRequest J A W) (claimed : ClaimedAction J)
    (spec : ToolSpec J A W) (args : A) : Prop extends Loaded a r claimed where
  tool : getTool r.tools a.tool = some spec
  args : spec.modelValidate a.argsJson = some args

/-- The preview is the staged one. -/
structure Unchanged (env : AgentEnv J W) (a : AgentPendingAction J) (ctx : ToolContext) (spec : ToolSpec J A W)
    (args : A) (seen : W) (preview : Preview J) : Prop where
  previewed : runPreview seen ctx spec args a.previewJson.reverts = .ok preview
  fingerprint : fingerprint env a.tool a.argsJson preview.changes = a.fingerprint

/-- What a request has checked when it comes to a phase. -/
def Checked (env : AgentEnv J W) (staged : Table (AgentPendingAction J)) (r : AgentRequest J A W) :
    AgentPhase J A W → Prop
  | .claiming _ _ => r.ctx.channel = .mcp → r.ctx.apiTokenId.isSome
  | .loading actionId now => ∃ a, staged.get? actionId = some a ∧ Licensed a r.ctx now
  | .gating claimed => ∃ a, staged.get? claimed.actionId = some a ∧ Loaded a r claimed
  | .previewing claimed spec args => ∃ a, staged.get? claimed.actionId = some a ∧ Gated a r claimed spec args
  | .executing claimed spec args seen preview =>
    ∃ a, staged.get? claimed.actionId = some a ∧ Gated a r claimed spec args ∧
      Unchanged env a r.ctx spec args seen preview
  | .finishing _ verdict => ∀ fresh, verdict.fresh = some fresh → fresh.status = .pending
  | _ => True

/-- What `execute` ran as. -/
structure AsPreviewed (env : AgentEnv J W) (a : AgentPendingAction J) (e : Execution J A W) : Prop extends
    Licensed a e.ctx e.claimed.now, Unchanged env a e.ctx e.spec e.args e.seen e.preview where
  tool : e.spec.name = a.tool
  args : e.spec.modelValidate a.argsJson = some e.args
  notSensitiveNow : e.ctx.channel = .mcp → e.spec.risk ≠ .sensitive

structure AgentFacts (env : AgentEnv J W) (s : AgentState J A W) : Prop where
  next : s.staged.next = s.actions.next
  rows : ∀ i row, s.actions.get? i = some row → ∃ a, s.staged.get? i = some a ∧ SameAction row a
  checked : ∀ id r, s.requests.get? id = some r → Checked env s.staged r r.phase
  executions : ∀ e ∈ s.executions, ∃ a, s.staged.get? e.claimed.actionId = some a ∧ AsPreviewed env a e
  callers : ∀ e ∈ s.executions, e.requestId < s.requests.next

/-! ## What each phase checks -/

theorem getTool_name {tools : List (ToolSpec J A W)} {name : String} {spec : ToolSpec J A W}
    (h : getTool tools name = some spec) : spec.name = name := by
  have := List.find?_some h
  simpa using this

/-- A request that passed the gate over MCP has a token. -/
theorem scopeGate_token {ctx : ToolContext} {scopes : List String} (h : scopeGate ctx scopes = .ok ())
    (hmcp : ctx.channel = .mcp) : ctx.apiTokenId.isSome := by
  simp only [scopeGate, refuse_eq_ok, hmcp, Bool.not_eq_false, Bool.and_eq_true] at h
  exact h.2

/-- What the claim says of the row, as it was staged. -/
theorem licensed_of_claimable {row a : AgentPendingAction J} {ctx : ToolContext} {now : Int}
    (hsame : SameAction row a) (htoken : ctx.channel = .mcp → ctx.apiTokenId.isSome)
    (h : claimable ctx now row = true) : Licensed a ctx now := by
  obtain ⟨status, apiTokenId, decidedAt, resultJson, errorCode, rfl, hor⟩ := hsame
  simp only [claimable, mine, Bool.and_eq_true, Bool.or_eq_true, beq_iff_eq, decide_eq_true_eq, bne_iff_ne] at h
  obtain ⟨⟨⟨⟨⟨horg, huser⟩, howner⟩, -⟩, htime⟩, hrisk⟩ := h
  refine ⟨horg, huser, htime, fun hmcp => ?_, fun hmcp => ?_⟩
  · rcases howner with hin | ⟨hchannel, htok⟩
    · rw [hmcp] at hin
      cases hin
    · -- the token is compared null-safe, and the claimer has one
      obtain ⟨t, ht⟩ := Option.isSome_iff_exists.mp (htoken hmcp)
      rcases hor with hor | hor
      · exact ⟨hchannel.trans hmcp, t, ht, by rw [← hor, htok, ht]⟩
      · rw [hor, ht] at htok
        cases htok
  · rcases hrisk with hin | hrisk
    · rw [hmcp] at hin
      cases hin
    · exact hrisk

theorem SameAction.fields {row a : AgentPendingAction J} (h : SameAction row a) :
    row.tool = a.tool ∧ row.argsJson = a.argsJson ∧ row.fingerprint = a.fingerprint ∧
      row.previewJson = a.previewJson ∧ row.expiresAt = a.expiresAt := by
  obtain ⟨_, _, _, _, _, rfl, -⟩ := h
  exact ⟨rfl, rfl, rfl, rfl, rfl⟩

/-- The updates of a row keep what was staged. -/
def KeepsAction (f : AgentPendingAction J → AgentPendingAction J) : Prop :=
  ∀ row a, SameAction row a → SameAction (f row) a

theorem keepsAction_claim (now : Int) :
    KeepsAction (fun row : AgentPendingAction J => { row with status := .executing, decidedAt := some now }) := by
  rintro row a ⟨_, _, _, _, _, rfl, hor⟩
  exact ⟨_, _, _, _, _, rfl, hor⟩

theorem keepsAction_release : KeepsAction (releaseRow (J := J)) := by
  intro row a h
  unfold releaseRow
  split
  · obtain ⟨_, _, _, _, _, rfl, hor⟩ := h
    exact ⟨_, _, _, _, _, rfl, hor⟩
  · exact h

theorem keepsAction_finish (verdict : Verdict J) : KeepsAction (finishRow verdict) := by
  intro row a h
  unfold finishRow
  split
  · obtain ⟨_, _, _, _, _, rfl, hor⟩ := h
    exact ⟨_, _, _, _, _, rfl, hor⟩
  · exact h

theorem keepsAction_cancel (now : Int) : KeepsAction (cancelRow (J := J) now) := by
  intro row a h
  unfold cancelRow
  split
  · obtain ⟨_, _, _, _, _, rfl, hor⟩ := h
    exact ⟨_, _, _, _, _, rfl, hor⟩
  · exact h

/-! ## What every step keeps -/

/-- A later table has what an earlier one has. -/
def Extends (t t' : Table (AgentPendingAction J)) : Prop := ∀ i a, t.get? i = some a → t'.get? i = some a

theorem extends_insert (t : Table (AgentPendingAction J)) (row : AgentPendingAction J) : Extends t (t.insert row) := by
  intro i a h
  rw [Table.get?_insert, if_neg (ne_of_lt (Table.get?_lt_next h))]
  exact h

theorem Checked.mono {t t' : Table (AgentPendingAction J)} (hext : Extends t t') {phase : AgentPhase J A W}
    (h : Checked env t r phase) : Checked env t' r phase := by
  cases phase with
  | loading | gating | previewing | executing =>
    obtain ⟨a, ha, h⟩ := h
    exact ⟨a, hext _ a ha, h⟩
  | _ => exact h

namespace AgentFacts

theorem goto (h : AgentFacts env s) (hr : Checked env s.staged r r.phase) : AgentFacts env (s.goto id r) where
  next := h.next
  rows := h.rows
  checked := by
    intro x q hq
    obtain ⟨old, hold, rfl⟩ := Table.get?_modify_eq_some.mp hq
    by_cases hx : x = id
    · rw [if_pos hx]
      exact hr
    · rw [if_neg hx]
      exact h.checked x old hold
  executions := h.executions
  callers := h.callers

theorem begin (h : AgentFacts env s) (hr : Checked env s.staged r r.phase) :
    AgentFacts env { s with requests := s.requests.insert r } where
  next := h.next
  rows := h.rows
  checked := by
    intro x q hq
    rcases Table.get?_insert_cases hq with ⟨-, rfl⟩ | ⟨-, hq⟩
    · exact hr
    · exact h.checked x q hq
  executions := h.executions
  callers := fun e he => Nat.lt_succ_of_lt (h.callers e he)

theorem update (h : AgentFacts env s) (actionId : Nat) {f : AgentPendingAction J → AgentPendingAction J}
    (hf : KeepsAction f) : AgentFacts env (s.update actionId f) where
  next := h.next
  rows := by
    intro i row hi
    obtain ⟨old, hold, rfl⟩ := Table.get?_modify_eq_some.mp hi
    obtain ⟨a, ha, hsame⟩ := h.rows i old hold
    refine ⟨a, ha, ?_⟩
    split
    · exact hf old a hsame
    · exact hsame
  checked := h.checked
  executions := h.executions
  callers := h.callers

theorem mapRows (h : AgentFacts env s) {f : Nat → AgentPendingAction J → AgentPendingAction J}
    (hf : ∀ i, KeepsAction (f i)) : AgentFacts env { s with actions := s.actions.mapRows f } where
  next := h.next
  rows := by
    intro i row hi
    rw [Table.get?_mapRows, Option.map_eq_some_iff] at hi
    obtain ⟨old, hold, rfl⟩ := hi
    obtain ⟨a, ha, hsame⟩ := h.rows i old hold
    exact ⟨a, ha, hf i old a hsame⟩
  checked := h.checked
  executions := h.executions
  callers := h.callers

theorem deleteRows (h : AgentFacts env s) (doomed : Nat → Bool) :
    AgentFacts env { s with actions := s.actions.remove doomed } where
  next := h.next
  rows := by
    intro i row hi
    rw [Table.get?_remove] at hi
    split at hi
    · cases hi
    · exact h.rows i row hi
  checked := h.checked
  executions := h.executions
  callers := h.callers

theorem stage (h : AgentFacts env s) (row : AgentPendingAction J) : AgentFacts env (s.stage row) where
  next := congrArg (· + 1) h.next
  rows := by
    intro i old hi
    rcases Table.get?_insert_cases hi with ⟨rfl, rfl⟩ | ⟨-, hi⟩
    · refine ⟨_, ?_, .refl _⟩
      rw [AgentState.stage, Table.get?_insert, if_pos h.next.symm]
    · obtain ⟨a, ha, hsame⟩ := h.rows i old hi
      exact ⟨a, extends_insert s.staged row i a ha, hsame⟩
  checked := fun x q hq => (h.checked x q hq).mono (extends_insert s.staged row)
  executions := by
    intro e he
    obtain ⟨a, ha, hran⟩ := h.executions e he
    exact ⟨a, extends_insert s.staged row _ a ha, hran⟩
  callers := h.callers

end AgentFacts

/-- What was checked does not depend on where the request goes. -/
theorem Loaded.goto {a : AgentPendingAction J} {claimed : ClaimedAction J} (h : Loaded a r claimed)
    (phase : AgentPhase J A W) : Loaded a (r.goto phase) claimed := ⟨h.licensed, h.same, h.toolNow⟩

theorem Checked.goto {staged : Table (AgentPendingAction J)} {phase : AgentPhase J A W} (h : Checked env staged r phase)
    (phase' : AgentPhase J A W) : Checked env staged (r.goto phase') phase := by
  cases phase with
  | gating =>
    obtain ⟨a, ha, h⟩ := h
    exact ⟨a, ha, h.goto phase'⟩
  | previewing =>
    obtain ⟨a, ha, h⟩ := h
    exact ⟨a, ha, h.toLoaded.goto phase', h.tool, h.args⟩
  | executing =>
    obtain ⟨a, ha, h, hsame⟩ := h
    exact ⟨a, ha, ⟨h.toLoaded.goto phase', h.tool, h.args⟩, hsame⟩
  | _ => exact h

theorem raise_checked {staged : Table (AgentPendingAction J)} (error : ToolError) :
    Checked env staged (r.raise error) (r.raise error).phase := by
  unfold AgentRequest.raise
  split <;> trivial

/-- The preview of a confirm is followed by `execute` only if it is the staged one. -/
theorem confirmPreview_checked {claimed : ClaimedAction J} {spec : ToolSpec J A W} {args : A}
    {staged : Table (AgentPendingAction J)} {a : AgentPendingAction J} (ha : staged.get? claimed.actionId = some a)
    (hgated : Gated a r claimed spec args) (w : W) (clock : Int) :
    Checked env staged r (confirmPreview env w clock r claimed spec args) := by
  obtain ⟨htool, hargs, hfingerprint, hpreview, -⟩ := hgated.same.fields
  simp only [confirmPreview, htool, hargs, hfingerprint, hpreview]
  split
  · intro fresh hnone
    unfold Verdict.ofFailure at hnone
    split at hnone <;> cases hnone
  · rename_i preview hrun
    split
    · rename_i hsame
      exact ⟨a, ha, hgated, hrun, hsame⟩
    · split
      · intro fresh hnone
        unfold Verdict.ofFailure at hnone
        split at hnone <;> cases hnone
      · rename_i fresh hfresh
        intro row hrow
        obtain rfl := Option.some.inj hrow
        exact newRow_status hfresh

theorem ofFailure_fresh (failure : HookFailure) : (Verdict.ofFailure failure : Verdict J).fresh = none := by
  cases failure <;> rfl

/-- Where nothing runs any more, nothing is to be checked. -/
theorem checked_finishing {staged : Table (AgentPendingAction J)} {claimed : ClaimedAction J} {verdict : Verdict J}
    (h : verdict.fresh = none) : Checked env staged r (.finishing claimed verdict) := by
  intro fresh hfresh
  rw [h] at hfresh
  cases hfresh

theorem agentRead_checked (hfacts : AgentFacts env s) (hr : Checked env s.staged r r.phase)
    (h : agentRead env s r = some r') : Checked env s.staged r' r'.phase := by
  cases hp : r.phase with
  | proposing | counting | drafting | missed | cancelling =>
    simp only [agentRead, hp] at h
    repeat' split at h
    all_goals
      obtain rfl := Option.some.inj h
      first | exact raise_checked _ | trivial
  | confirming actionId =>
    simp only [agentRead, hp] at h
    split at h
    · obtain rfl := Option.some.inj h
      exact raise_checked _
    · obtain rfl := Option.some.inj h
      rename_i hgate
      exact scopeGate_token hgate
  | loading actionId now =>
    rw [hp] at hr
    obtain ⟨a, ha, hlicensed⟩ := hr
    simp only [agentRead, hp] at h
    split at h
    · obtain rfl := Option.some.inj h
      trivial
    · rename_i row hrow
      split at h
      · obtain rfl := Option.some.inj h
        trivial
      · obtain rfl := Option.some.inj h
        rename_i hnow
        obtain ⟨a', ha', hsame⟩ := hfacts.rows actionId row hrow
        obtain rfl := Option.some.inj (ha.symm.trans ha')
        exact ⟨a, ha, hlicensed, hsame, Bool.not_eq_true _ ▸ hnow⟩
  | gating claimed =>
    rw [hp] at hr
    obtain ⟨a, ha, hloaded⟩ := hr
    simp only [agentRead, hp] at h
    split at h
    · obtain rfl := Option.some.inj h
      exact checked_finishing (ofFailure_fresh _)
    · rename_i spec args hchecks
      obtain rfl := Option.some.inj h
      obtain ⟨htool, hargs, -⟩ := hloaded.same.fields
      simp only [confirmChecks] at hchecks
      obtain ⟨spec', hspec, hchecks⟩ := bind_eq_ok.mp hchecks
      obtain ⟨_, _, hchecks⟩ := bind_eq_ok.mp hchecks
      obtain ⟨args', hargs', hchecks⟩ := bind_eq_ok.mp hchecks
      obtain ⟨rfl, rfl⟩ := Prod.mk.inj (Except.ok.inj hchecks)
      rw [found_eq_ok, htool] at hspec
      rw [found_eq_ok, hargs] at hargs'
      exact ⟨a, ha, hloaded.goto _, hspec, hargs'⟩
  | previewing claimed spec args =>
    rw [hp] at hr
    obtain ⟨a, ha, hgated⟩ := hr
    simp only [agentRead, hp] at h
    obtain rfl := Option.some.inj h
    exact (confirmPreview_checked ha hgated s.world s.clock).goto _
  | executing claimed spec args seen preview =>
    simp only [agentRead, hp] at h
    split at h
    · cases h
    · obtain rfl := Option.some.inj h
      exact checked_finishing (ofFailure_fresh _)
  | leaving claimed verdict =>
    simp only [agentRead, hp] at h
    split at h
    · obtain rfl := Option.some.inj h
      exact raise_checked _
    · obtain rfl := Option.some.inj h
      trivial
  | staging | claiming | releasing | finishing | cleaning | withdrawing | retracting | done =>
    simp only [agentRead, hp] at h
    cases h

theorem agentWrite_facts (hfacts : AgentFacts env s) (hr : Checked env s.staged r r.phase)
    (h : agentWrite env s id r = some s') : AgentFacts env s' := by
  cases hp : r.phase with
  | staging spec args preview =>
    simp only [agentWrite, hp] at h
    split at h
    · obtain rfl := Option.some.inj h
      exact hfacts.goto (raise_checked _)
    · obtain rfl := Option.some.inj h
      exact hfacts.goto trivial
    · obtain rfl := Option.some.inj h
      refine (hfacts.stage _).goto ?_
      split <;> trivial
  | claiming actionId now =>
    rw [hp] at hr
    simp only [agentWrite, hp] at h
    split at h
    · obtain rfl := Option.some.inj h
      rename_i hany
      obtain ⟨row, hrow, hclaimable⟩ := (Option.any_eq_true _ _).mp hany
      obtain ⟨a, ha, hsame⟩ := hfacts.rows actionId row hrow
      exact (hfacts.update actionId (keepsAction_claim now)).goto ⟨a, ha, licensed_of_claimable hsame hr hclaimable⟩
    · obtain rfl := Option.some.inj h
      exact hfacts.goto trivial
  | releasing claimed =>
    simp only [agentWrite, hp] at h
    obtain rfl := Option.some.inj h
    exact (hfacts.update claimed.actionId keepsAction_release).goto (raise_checked _)
  | finishing claimed verdict =>
    simp only [agentWrite, hp] at h
    obtain rfl := Option.some.inj h
    have hupdate := hfacts.update claimed.actionId (keepsAction_finish verdict)
    rcases verdict.fresh with _ | fresh
    · exact hupdate.goto trivial
    · exact (hupdate.stage fresh).goto trivial
  | cleaning claimed =>
    simp only [agentWrite, hp] at h
    obtain rfl := Option.some.inj h
    exact (hfacts.update claimed.actionId (keepsAction_finish _)).goto trivial
  | withdrawing actionId now =>
    simp only [agentWrite, hp] at h
    split at h
    · obtain rfl := Option.some.inj h
      exact (hfacts.update actionId (keepsAction_cancel now)).goto trivial
    · obtain rfl := Option.some.inj h
      exact hfacts.goto trivial
  | retracting actionId error =>
    simp only [agentWrite, hp] at h
    obtain rfl := Option.some.inj h
    exact (hfacts.update actionId (keepsAction_cancel s.clock)).goto trivial
  | _ =>
    simp only [agentWrite, hp] at h
    cases h

theorem escape_checked {staged : Table (AgentPendingAction J)} :
    Checked env staged (r.goto r.phase.escape) r.phase.escape := by
  cases r.phase <;> trivial

/-- A call of `execute` runs what the request has checked. -/
theorem execute_facts (hfacts : AgentFacts env s) (hr' : s.requests.get? id = some r) {claimed : ClaimedAction J} {spec : ToolSpec J A W} {args : A}
    {seen : W} {preview : Preview J} (hr : Checked env s.staged r (.executing claimed spec args seen preview))
    (world : W) : AgentFacts env
      (s.executed world { requestId := id, ctx := r.ctx, claimed, spec, args, seen, preview }) where
  next := hfacts.next
  rows := hfacts.rows
  checked := hfacts.checked
  executions := by
    intro e he
    rcases List.mem_cons.mp he with rfl | he
    · obtain ⟨a, ha, hgated, hunchanged⟩ := hr
      refine ⟨a, ha, hgated.licensed, hunchanged, getTool_name hgated.tool, hgated.args, fun hmcp hsensitive => ?_⟩
      -- the release comes first if the tool is sensitive now
      have hnow := hgated.toolNow
      obtain ⟨htool, -⟩ := hgated.same.fields
      have hmcp : r.ctx.channel = .mcp := hmcp
      have hsensitive : spec.risk = .sensitive := hsensitive
      simp [isSensitiveNow, hmcp, htool, hgated.tool, hsensitive] at hnow
    · exact hfacts.executions e he
  callers := by
    intro e he
    rcases List.mem_cons.mp he with rfl | he
    · exact Table.get?_lt_next hr'
    · exact hfacts.callers e he

theorem agentStep_facts {e : AgentEvent J A W} (hfacts : AgentFacts env s) (h : agentStep env s e = .ok s') :
    AgentFacts env s' := by
  cases e with
  | propose | confirm | cancel =>
    obtain rfl := Except.ok.inj h
    exact hfacts.begin trivial
  | next id =>
    obtain ⟨r, hr, h⟩ := bind_eq_ok.mp h
    rw [found_eq_ok] at hr
    rcases hread : agentRead env s r with _ | r'
    · simp only [hread] at h
      rw [found_eq_ok] at h
      exact agentWrite_facts hfacts (hfacts.checked id r hr) h
    · simp only [hread] at h
      obtain rfl := Except.ok.inj h
      exact hfacts.goto (agentRead_checked hfacts (hfacts.checked id r hr) hread)
  | limit id error =>
    obtain ⟨r, hr, h⟩ := bind_eq_ok.mp h
    obtain ⟨_, _, h⟩ := bind_eq_ok.mp h
    obtain rfl := Except.ok.inj h
    exact hfacts.goto (raise_checked _)
  | execute id outcome world =>
    obtain ⟨r, hr, h⟩ := bind_eq_ok.mp h
    rw [found_eq_ok] at hr
    cases hp : r.phase with
    | executing claimed spec args seen preview =>
      simp only [hp] at h
      obtain ⟨_, _, h⟩ := bind_eq_ok.mp h
      obtain rfl := Except.ok.inj h
      have hchecked := hfacts.checked id r hr
      rw [hp] at hchecked
      refine (execute_facts hfacts hr hchecked world).goto ?_
      cases outcome with
      | returned => exact checked_finishing rfl
      | failed failure => exact checked_finishing (ofFailure_fresh failure)
      | escaped | crashed => trivial
    | _ =>
      simp only [hp] at h
      cases h
  | escape id =>
    obtain ⟨r, hr, h⟩ := bind_eq_ok.mp h
    obtain ⟨_, _, h⟩ := bind_eq_ok.mp h
    obtain rfl := Except.ok.inj h
    exact hfacts.goto escape_checked
  | crash id =>
    obtain ⟨r, hr, h⟩ := bind_eq_ok.mp h
    obtain ⟨_, _, h⟩ := bind_eq_ok.mp h
    obtain rfl := Except.ok.inj h
    exact hfacts.goto trivial
  | revoke tokenIds =>
    obtain rfl := Except.ok.inj h
    refine hfacts.mapRows fun i row a hsame => ?_
    split
    · exact keepsAction_cancel s.clock row a hsame
    · exact hsame
  | deleteToken tokenId =>
    obtain rfl := Except.ok.inj h
    refine hfacts.mapRows fun i row a hsame => ?_
    split
    · obtain ⟨_, _, _, _, _, rfl, -⟩ := hsame
      exact ⟨_, _, _, _, _, rfl, .inr rfl⟩
    · exact hsame
  | deleteRows actionIds =>
    obtain rfl := Except.ok.inj h
    exact hfacts.deleteRows _
  | change | tick =>
    obtain rfl := Except.ok.inj h
    exact ⟨hfacts.next, hfacts.rows, hfacts.checked, hfacts.executions, hfacts.callers⟩

theorem AgentFacts.fresh (h : AgentFacts env s) : ∀ id r, s.requests.get? id = some r → r.phase.FreshPending := by
  intro id r hr
  have hchecked := h.checked id r hr
  cases hp : r.phase with
  | finishing claimed verdict =>
    rw [hp] at hchecked
    exact hchecked
  | _ => trivial

/-! ## Whole runs -/

/-- The engine before anything was staged. -/
def AgentState.initial (clock : Int) (world : W) : AgentState J A W := { clock, world }

def agentRun (env : AgentEnv J W) (s : AgentState J A W) (es : List (AgentEvent J A W)) : AgentState J A W :=
  run (agentStep env) s es

theorem agentRun_facts (h : AgentFacts env s) (es : List (AgentEvent J A W)) : AgentFacts env (agentRun env s es) :=
  run_invariant (I := AgentFacts env) (fun _ _ _ hfacts hstep => agentStep_facts hfacts hstep) es h

theorem initial_facts (clock : Int) (world : W) : AgentFacts env (.initial clock world : AgentState J A W) where
  next := rfl
  rows := by
    intro i row h
    cases h
  checked := by
    intro id r h
    cases h
  executions := by
    intro e he
    cases he
  callers := by
    intro e he
    cases he

theorem initial_sound (clock : Int) (world : W) : (AgentState.initial clock world : AgentState J A W).jobs.Sound where
  unique := by
    intro x y k hx
    rcases hx with hx | hx | hx <;> cases hx
  claimed := by
    intro x k hx
    rcases hx with hx | hx | hx <;> cases hx
  holding := by
    intro x k hx
    cases hx
  unrun := by
    intro x k hx hk
    cases hk
  spent := by
    intro k hk
    cases hk
  once := List.nodup_nil

/-- A run of the engine is a run of the jobs. -/
theorem agentRun_jobs (h : AgentFacts env s) (es : List (AgentEvent J A W)) :
    Jobs.Steps s.jobs (agentRun env s es).jobs := by
  have hboth : AgentFacts env (agentRun env s es) ∧ Jobs.Steps s.jobs (agentRun env s es).jobs :=
    run_invariant (I := fun t => AgentFacts env t ∧ Jobs.Steps s.jobs t.jobs)
      (fun t e t' hI hstep => ⟨agentStep_facts hI.1 hstep, hI.2.trans (agentStep_jobs hI.1.fresh hstep)⟩) es ⟨h, .refl⟩
  exact hboth.2

/-! ## When a claim was made, and what was seen after it -/

/-- The clock the claim of a request compares with. -/
def AgentPhase.stamp : AgentPhase J A W → Option Int
  | .claiming _ now => some now
  | .loading _ now => some now
  | .releasing claimed => some claimed.now
  | .gating claimed => some claimed.now
  | .previewing claimed _ _ => some claimed.now
  | .executing claimed _ _ _ _ => some claimed.now
  | _ => none

/-- A claim goes by the clock as it was read, and `execute` comes after a preview. -/
structure Follows (s : AgentState J A W) (p p' : AgentPhase J A W) : Prop where
  stamp : ∀ t, p'.stamp = some t → p.stamp = some t ∨ t = s.clock
  previewed : ∀ claimed spec args seen preview, p' = .executing claimed spec args seen preview →
    p = .previewing claimed spec args ∧ seen = s.world

/-- What an event does to the requests. -/
inductive AgentStir (s s' : AgentState J A W) : Prop
  | begin (r : AgentRequest J A W) : r.phase.stamp = none → s'.requests = s.requests.insert r →
      s'.executions = s.executions → s'.clock = s.clock → AgentStir s s'
  | move (id : Nat) (r r' : AgentRequest J A W) : s.requests.get? id = some r →
      s'.requests = s.requests.modify id (fun _ => r') → Follows s r.phase r'.phase →
      s'.executions = s.executions → s'.clock = s.clock → AgentStir s s'
  | execute (id : Nat) (r r' : AgentRequest J A W) (e : Execution J A W) : s.requests.get? id = some r →
      s'.requests = s.requests.modify id (fun _ => r') → r'.phase.stamp = none → e.requestId = id →
      r.phase = .executing e.claimed e.spec e.args e.seen e.preview →
      s'.executions = e :: s.executions → s'.clock = s.clock → AgentStir s s'
  | other : s'.requests = s.requests → s'.executions = s.executions → s.clock ≤ s'.clock → AgentStir s s'

theorem follows_of_stamp {p p' : AgentPhase J A W} (h : p'.stamp = none) : Follows s p p' where
  stamp := by
    intro t ht
    rw [h] at ht
    cases ht
  previewed := by
    rintro claimed spec args seen preview rfl
    cases h

@[simp] theorem raise_stamp (error : ToolError) : (r.raise error).phase.stamp = none := by
  unfold AgentRequest.raise
  split <;> rfl

theorem confirmPreview_follows (claimed : ClaimedAction J) (spec : ToolSpec J A W) (args : A) :
    Follows s (.previewing claimed spec args) (confirmPreview env s.world s.clock r claimed spec args) := by
  simp only [confirmPreview]
  split
  · exact follows_of_stamp rfl
  · split
    · refine ⟨fun t ht => .inl ht, ?_⟩
      rintro _ _ _ _ _ ⟨rfl, rfl, rfl, rfl, rfl⟩
      exact ⟨rfl, rfl⟩
    · split <;> exact follows_of_stamp rfl

theorem agentRead_follows (h : agentRead env s r = some r') : Follows s r.phase r'.phase := by
  cases hp : r.phase with
  | proposing | counting | drafting | missed | cancelling =>
    simp only [agentRead, hp] at h
    repeat' split at h
    all_goals
      obtain rfl := Option.some.inj h
      exact follows_of_stamp (by first | exact raise_stamp _ | rfl)
  | confirming actionId =>
    simp only [agentRead, hp] at h
    split at h
    · obtain rfl := Option.some.inj h
      exact follows_of_stamp (raise_stamp _)
    · obtain rfl := Option.some.inj h
      exact ⟨fun t ht => .inr (Option.some.inj ht).symm, fun _ _ _ _ _ he => by cases he⟩
  | loading actionId now =>
    simp only [agentRead, hp] at h
    split at h
    · obtain rfl := Option.some.inj h
      exact follows_of_stamp rfl
    · split at h
      all_goals
        obtain rfl := Option.some.inj h
        exact ⟨fun t ht => .inl ht, fun _ _ _ _ _ he => by cases he⟩
  | gating claimed =>
    simp only [agentRead, hp] at h
    split at h
    · obtain rfl := Option.some.inj h
      exact follows_of_stamp rfl
    · obtain rfl := Option.some.inj h
      exact ⟨fun t ht => .inl ht, fun _ _ _ _ _ he => by cases he⟩
  | previewing claimed spec args =>
    simp only [agentRead, hp] at h
    obtain rfl := Option.some.inj h
    exact confirmPreview_follows claimed spec args
  | executing claimed spec args seen preview =>
    simp only [agentRead, hp] at h
    split at h
    · cases h
    · obtain rfl := Option.some.inj h
      exact follows_of_stamp rfl
  | leaving claimed verdict =>
    simp only [agentRead, hp] at h
    split at h
    all_goals
      obtain rfl := Option.some.inj h
      exact follows_of_stamp (by first | exact raise_stamp _ | rfl)
  | staging | claiming | releasing | finishing | cleaning | withdrawing | retracting | done =>
    simp only [agentRead, hp] at h
    cases h

theorem agentWrite_stir (hr : s.requests.get? id = some r) (h : agentWrite env s id r = some s') : AgentStir s s' := by
  cases hp : r.phase with
  | staging spec args preview =>
    simp only [agentWrite, hp] at h
    split at h
    all_goals obtain rfl := Option.some.inj h
    · exact .move id r _ hr rfl (follows_of_stamp (raise_stamp _)) rfl rfl
    · exact .move id r _ hr rfl (follows_of_stamp rfl) rfl rfl
    · refine .move id r _ hr rfl (follows_of_stamp ?_) rfl rfl
      split <;> rfl
  | claiming actionId now =>
    simp only [agentWrite, hp] at h
    split at h
    all_goals obtain rfl := Option.some.inj h
    · refine .move id r _ hr rfl ⟨fun t ht => .inl ?_, fun _ _ _ _ _ he => by cases he⟩ rfl rfl
      rw [hp]
      exact ht
    · exact .move id r _ hr rfl (follows_of_stamp rfl) rfl rfl
  | releasing claimed =>
    simp only [agentWrite, hp] at h
    obtain rfl := Option.some.inj h
    exact .move id r _ hr rfl (follows_of_stamp (raise_stamp _)) rfl rfl
  | finishing claimed verdict =>
    simp only [agentWrite, hp] at h
    obtain rfl := Option.some.inj h
    cases verdict.fresh <;> exact .move id r _ hr rfl (follows_of_stamp rfl) rfl rfl
  | cleaning claimed =>
    simp only [agentWrite, hp] at h
    obtain rfl := Option.some.inj h
    exact .move id r _ hr rfl (follows_of_stamp rfl) rfl rfl
  | withdrawing actionId now =>
    simp only [agentWrite, hp] at h
    split at h
    all_goals
      obtain rfl := Option.some.inj h
      exact .move id r _ hr rfl (follows_of_stamp rfl) rfl rfl
  | retracting actionId error =>
    simp only [agentWrite, hp] at h
    obtain rfl := Option.some.inj h
    exact .move id r _ hr rfl (follows_of_stamp rfl) rfl rfl
  | _ =>
    simp only [agentWrite, hp] at h
    cases h

theorem agentStep_stir {e : AgentEvent J A W} (h : agentStep env s e = .ok s') : AgentStir s s' := by
  cases e with
  | propose | confirm | cancel =>
    obtain rfl := Except.ok.inj h
    exact .begin _ rfl rfl rfl rfl
  | next id =>
    obtain ⟨r, hr, h⟩ := bind_eq_ok.mp h
    rw [found_eq_ok] at hr
    rcases hread : agentRead env s r with _ | r'
    · simp only [hread] at h
      rw [found_eq_ok] at h
      exact agentWrite_stir hr h
    · simp only [hread] at h
      obtain rfl := Except.ok.inj h
      exact .move id r r' hr rfl (agentRead_follows hread) rfl rfl
  | limit id error =>
    obtain ⟨r, hr, h⟩ := bind_eq_ok.mp h
    rw [found_eq_ok] at hr
    obtain ⟨_, _, h⟩ := bind_eq_ok.mp h
    obtain rfl := Except.ok.inj h
    exact .move id r _ hr rfl (follows_of_stamp (raise_stamp _)) rfl rfl
  | execute id outcome world =>
    obtain ⟨r, hr, h⟩ := bind_eq_ok.mp h
    rw [found_eq_ok] at hr
    cases hp : r.phase with
    | executing claimed spec args seen preview =>
      simp only [hp] at h
      obtain ⟨_, _, h⟩ := bind_eq_ok.mp h
      obtain rfl := Except.ok.inj h
      refine .execute id r _ _ hr rfl ?_ rfl hp rfl rfl
      cases outcome <;> rfl
    | _ =>
      simp only [hp] at h
      cases h
  | escape id =>
    obtain ⟨r, hr, h⟩ := bind_eq_ok.mp h
    rw [found_eq_ok] at hr
    obtain ⟨_, _, h⟩ := bind_eq_ok.mp h
    obtain rfl := Except.ok.inj h
    refine .move id r _ hr rfl (follows_of_stamp ?_) rfl rfl
    simp only [AgentRequest.goto]
    cases r.phase <;> rfl
  | crash id =>
    obtain ⟨r, hr, h⟩ := bind_eq_ok.mp h
    rw [found_eq_ok] at hr
    obtain ⟨_, _, h⟩ := bind_eq_ok.mp h
    obtain rfl := Except.ok.inj h
    exact .move id r _ hr rfl (follows_of_stamp rfl) rfl rfl
  | tick seconds =>
    obtain rfl := Except.ok.inj h
    exact .other rfl rfl (Int.le_add_of_nonneg_right (Int.natCast_nonneg seconds))
  | revoke | deleteToken | deleteRows | change =>
    obtain rfl := Except.ok.inj h
    exact .other rfl rfl le_rfl

/-- The requests from `n` on compare with a clock no earlier than `c`. -/
structure Late (c : Int) (n : Nat) (s : AgentState J A W) : Prop where
  clock : c ≤ s.clock
  requests : ∀ id r t, n ≤ id → s.requests.get? id = some r → r.phase.stamp = some t → c ≤ t
  executions : ∀ e ∈ s.executions, n ≤ e.requestId → c ≤ e.claimed.now

theorem AgentStir.late {c : Int} {n : Nat} (h : AgentStir s s') (hlate : Late c n s) : Late c n s' := by
  cases h with
  | begin r hstamp hreq hexec hclock =>
    refine ⟨hclock ▸ hlate.clock, ?_, hexec ▸ hlate.executions⟩
    intro id q t hn hq ht
    rw [hreq] at hq
    rcases Table.get?_insert_cases hq with ⟨-, rfl⟩ | ⟨-, hq⟩
    · rw [hstamp] at ht
      cases ht
    · exact hlate.requests id q t hn hq ht
  | move x r r' hr hreq hfollows hexec hclock =>
    refine ⟨hclock ▸ hlate.clock, ?_, hexec ▸ hlate.executions⟩
    intro id q t hn hq ht
    rw [hreq] at hq
    rcases Table.get?_modify_cases hr hq with ⟨rfl, rfl⟩ | ⟨-, hq⟩
    · rcases hfollows.stamp t ht with hold | rfl
      · exact hlate.requests id r t hn hr hold
      · exact hlate.clock
    · exact hlate.requests id q t hn hq ht
  | execute x r r' e hr hreq hstamp hid hp hexec hclock =>
    refine ⟨hclock ▸ hlate.clock, ?_, ?_⟩
    · intro id q t hn hq ht
      rw [hreq] at hq
      rcases Table.get?_modify_cases hr hq with ⟨-, rfl⟩ | ⟨-, hq⟩
      · rw [hstamp] at ht
        cases ht
      · exact hlate.requests id q t hn hq ht
    · intro e' he' hn
      rw [hexec] at he'
      rcases List.mem_cons.mp he' with rfl | he'
      · exact hlate.requests _ r _ hn (hid ▸ hr) (by rw [hp]; rfl)
      · exact hlate.executions e' he' hn
  | other hreq hexec hclock => exact ⟨hlate.clock.trans hclock, hreq ▸ hlate.requests, hexec ▸ hlate.executions⟩

theorem agentRun_late {c : Int} {n : Nat} (hlate : Late c n s) (es : List (AgentEvent J A W)) :
    Late c n (agentRun env s es) :=
  run_invariant (I := Late c n) (fun _ _ _ hI hstep => (agentStep_stir hstep).late hI) es hlate

/-- Whatever begins from here on is late. -/
theorem AgentFacts.late (h : AgentFacts env s) : Late s.clock s.requests.next s where
  clock := le_rfl
  requests := fun _ _ _ hn hr => absurd (Table.get?_lt_next hr) (not_lt.mpr hn)
  executions := fun e he hn => absurd (h.callers e he) (not_lt.mpr hn)

/-- At some point of the run the request held the row, and the world was the one it
recomputed the preview in. -/
def Recomputed (env : AgentEnv J W) (s : AgentState J A W) (es : List (AgentEvent J A W)) (id : Nat)
    (claimed : ClaimedAction J) (spec : ToolSpec J A W) (args : A) (seen : W) : Prop :=
  ∃ pre, pre <+: es ∧ (agentRun env s pre).world = seen ∧
    ∃ r, (agentRun env s pre).requests.get? id = some r ∧ r.phase = .previewing claimed spec args

theorem Recomputed.concat {es : List (AgentEvent J A W)} {claimed : ClaimedAction J} {spec : ToolSpec J A W} {args : A}
    {seen : W} (h : Recomputed env s es id claimed spec args seen) (e : AgentEvent J A W) :
    Recomputed env s (es ++ [e]) id claimed spec args seen := by
  obtain ⟨pre, hpre, h⟩ := h
  exact ⟨pre, hpre.trans (List.prefix_append es [e]), h⟩

/-- What runs, or is about to, was recomputed. -/
structure AllRecomputed (env : AgentEnv J W) (s : AgentState J A W) (es : List (AgentEvent J A W))
    (t : AgentState J A W) : Prop where
  requests : ∀ id r claimed spec args seen preview, t.requests.get? id = some r →
    r.phase = .executing claimed spec args seen preview → Recomputed env s es id claimed spec args seen
  executions : ∀ e ∈ t.executions, Recomputed env s es e.requestId e.claimed e.spec e.args e.seen

theorem AllRecomputed.step {es : List (AgentEvent J A W)} {e : AgentEvent J A W}
    (h : AllRecomputed env s es (agentRun env s es)) (hstir : AgentStir (agentRun env s es) s') :
    AllRecomputed env s (es ++ [e]) s' := by
  have hold : ∀ id r claimed spec args seen preview, (agentRun env s es).requests.get? id = some r →
      r.phase = .executing claimed spec args seen preview → Recomputed env s (es ++ [e]) id claimed spec args seen :=
    fun id r claimed spec args seen preview hr hp => (h.requests id r claimed spec args seen preview hr hp).concat e
  have hran : ∀ x ∈ (agentRun env s es).executions,
      Recomputed env s (es ++ [e]) x.requestId x.claimed x.spec x.args x.seen :=
    fun x hx => (h.executions x hx).concat e
  cases hstir with
  | begin r hstamp hreq hexec hclock =>
    refine ⟨?_, hexec ▸ hran⟩
    intro id q claimed spec args seen preview hq hp
    rw [hreq] at hq
    rcases Table.get?_insert_cases hq with ⟨-, rfl⟩ | ⟨-, hq⟩
    · rw [hp] at hstamp
      cases hstamp
    · exact hold id q claimed spec args seen preview hq hp
  | move x r r' hr hreq hfollows hexec hclock =>
    refine ⟨?_, hexec ▸ hran⟩
    intro id q claimed spec args seen preview hq hp
    rw [hreq] at hq
    rcases Table.get?_modify_cases hr hq with ⟨rfl, rfl⟩ | ⟨-, hq⟩
    · -- it comes from the preview, made in the world of this very step
      obtain ⟨hbefore, hseen⟩ := hfollows.previewed claimed spec args seen preview hp
      exact ⟨es, List.prefix_append es [e], hseen.symm, r, hr, hbefore⟩
    · exact hold id q claimed spec args seen preview hq hp
  | execute x r r' execution hr hreq hstamp hid hp hexec hclock =>
    refine ⟨?_, ?_⟩
    · intro id q claimed spec args seen preview hq hp'
      rw [hreq] at hq
      rcases Table.get?_modify_cases hr hq with ⟨-, rfl⟩ | ⟨-, hq⟩
      · rw [hp'] at hstamp
        cases hstamp
      · exact hold id q claimed spec args seen preview hq hp'
    · intro y hy
      rw [hexec] at hy
      rcases List.mem_cons.mp hy with rfl | hy
      · exact hold _ r _ _ _ _ _ (hid ▸ hr) hp
      · exact hran y hy
  | other hreq hexec hclock => exact ⟨hreq ▸ hold, hexec ▸ hran⟩

theorem agentRun_recomputed (clock : Int) (world : W) (es : List (AgentEvent J A W)) :
    AllRecomputed env (.initial clock world) es (agentRun env (.initial clock world) es) := by
  induction es using List.reverseRecOn with
  | nil =>
    constructor
    · intro id r claimed spec args seen preview hr
      cases hr
    · intro e he
      cases he
  | append_singleton es e ih =>
    rw [agentRun, run_concat]
    unfold serve
    split
    · rename_i s' hstep
      exact ih.step (agentStep_stir hstep)
    · exact ⟨fun id r claimed spec args seen preview hr hp => (ih.requests id r _ _ _ _ _ hr hp).concat e,
        fun x hx => (ih.executions x hx).concat e⟩

/-- **What the engine promises of a run.** -/
structure ActionsSafe (env : AgentEnv J W) (s : AgentState J A W) (es : List (AgentEvent J A W)) : Prop where
  /-- `execute` is called for an action at most once. -/
  once : ((agentRun env s es).executions.map (·.claimed.actionId)).Nodup
  /-- It is called by an owner who claimed the row in time, with the stored arguments and
  with the fingerprint that was staged, and over MCP for nothing sensitive. -/
  asPreviewed : ∀ e ∈ (agentRun env s es).executions,
    ∃ a, (agentRun env s es).staged.get? e.claimed.actionId = some a ∧ AsPreviewed env a e
  /-- The preview was recomputed by the claimer, after its claim. -/
  recomputed : ∀ e ∈ (agentRun env s es).executions, Recomputed env s es e.requestId e.claimed e.spec e.args e.seen
  /-- An action that is cancelled or stale at some point is never run. -/
  closed : ∀ pre i row, pre <+: es → (agentRun env s pre).actions.get? i = some row →
    row.status = .cancelled ∨ row.status = .stale → ∀ e ∈ (agentRun env s es).executions, e.claimed.actionId ≠ i
  /-- No request that begins once an action has expired runs it. -/
  expired : ∀ pre i a, pre <+: es → (agentRun env s es).staged.get? i = some a →
    a.expiresAt ≤ (agentRun env s pre).clock →
    ∀ e ∈ (agentRun env s es).executions, e.claimed.actionId = i → e.requestId < (agentRun env s pre).requests.next

end BetterDecision
