import BetterDecision.Lib.ClaimOnce
import BetterDecision.Lib.Locks
import BetterDecision.Model.AgentActions

/-!
# Agent actions as jobs

A row is a job under its status, a request is a worker, and it holds a row from the
update that made it `executing`. Every step of the engine is steps of the jobs
(`agentStep_jobs`): that no action runs twice, and that none runs once it was cancelled
or went stale, is then said of jobs.
-/

namespace BetterDecision

variable {J A W : Type} {env : AgentEnv J W} {s s' : AgentState J A W} {r r' : AgentRequest J A W} {id i : Nat}

/-! ## The jobs -/

def ActionStatus.job : ActionStatus → JobStatus
  | .pending => .free
  | .executing => .held
  | .done => .closed
  | .failed => .closed
  | .stale => .spoiled
  | .cancelled => .spoiled

/-- A verdict is closing, or on a preview that went stale. -/
def Verdict.claim (verdict : Verdict J) (actionId : Nat) : Claim Nat :=
  if verdict.status = .stale then .quitting actionId else .closing actionId

/-- What a request has claimed. It may still call `execute` while it holds the row. -/
def AgentPhase.claim : AgentPhase J A W → Claim Nat
  | .loading actionId _ => .holding actionId
  | .releasing claimed => .holding claimed.actionId
  | .gating claimed => .holding claimed.actionId
  | .previewing claimed _ _ => .holding claimed.actionId
  | .executing claimed _ _ _ _ => .holding claimed.actionId
  | .finishing claimed verdict => verdict.claim claimed.actionId
  | .leaving claimed verdict => verdict.claim claimed.actionId
  | .cleaning claimed => .closing claimed.actionId
  | _ => .idle

/-- A row that is not there was deleted, or its id is still to be drawn. -/
def rowJob (i next : Nat) : Option (AgentPendingAction J) → JobStatus
  | some row => row.status.job
  | none => if i < next then .gone else .unborn

def AgentState.jobs (s : AgentState J A W) : Jobs Nat Nat where
  status i := rowJob i s.actions.next (s.actions.get? i)
  claim id := (s.requests.get? id).elim .idle (·.phase.claim)
  ran := s.executions.map (·.claimed.actionId)

theorem jobs_status (i : Nat) : s.jobs.status i = rowJob i s.actions.next (s.actions.get? i) := rfl

theorem jobs_claim (id : Nat) : s.jobs.claim id = (s.requests.get? id).elim .idle (·.phase.claim) := rfl

theorem jobStatus_of_get? {row : AgentPendingAction J} (h : s.actions.get? i = some row) :
    s.jobs.status i = row.status.job := by
  rw [jobs_status, h]
  rfl

theorem jobStatus_of_none (h : s.actions.get? i = none) : s.jobs.status i ≠ .held := by
  rw [jobs_status, h, rowJob]
  split <;> decide

theorem jobClaim_of_get? (h : s.requests.get? id = some r) : s.jobs.claim id = r.phase.claim := by
  rw [jobs_claim, h]
  rfl

theorem job_eq_held {status : ActionStatus} : status.job = .held ↔ status = .executing := by
  cases status <;> simp [ActionStatus.job]

/-- A request that moves on moves its claim. -/
theorem jobs_goto (hr : s.requests.get? id = some r) (r' : AgentRequest J A W) :
    (s.goto id r').jobs = s.jobs.setClaim id r'.phase.claim := by
  refine Jobs.ext rfl (funext fun x => ?_) rfl
  rw [Jobs.setClaim_claim]
  by_cases hx : x = id
  · subst hx
    rw [if_pos rfl]
    exact jobClaim_of_get? (Table.get?_modify_self hr)
  · rw [if_neg hx]
    rw [jobs_claim, jobs_claim, AgentState.goto, Table.get?_modify_of_ne hx]

theorem jobs_update {row : AgentPendingAction J} (hi : s.actions.get? i = some row)
    (f : AgentPendingAction J → AgentPendingAction J) :
    (s.update i f).jobs = s.jobs.setStatus i (f row).status.job := by
  refine Jobs.ext (funext fun k => ?_) rfl rfl
  rw [Jobs.setStatus_status]
  by_cases hk : k = i
  · subst hk
    rw [if_pos rfl]
    exact jobStatus_of_get? (Table.get?_modify_self hi)
  · rw [if_neg hk]
    rw [jobs_status, jobs_status, AgentState.update, Table.get?_modify_of_ne hk, Table.next_modify]

/-- An update of a row that is gone changes nothing. -/
theorem update_of_none (hi : s.actions.get? i = none) (f : AgentPendingAction J → AgentPendingAction J) :
    s.update i f = s := by
  have hsame : s.actions.modify i f = s.actions := by
    refine Table.mapRows_eq_self fun j b hb => if_neg ?_
    rintro rfl
    rw [hi] at hb
    cases hb
  rw [AgentState.update, hsame]

/-- A row that is inserted is a new job. -/
theorem jobs_stage {row : AgentPendingAction J} (hrow : row.status = .pending) : Jobs.Step s.jobs (s.stage row).jobs := by
  have hborn : s.jobs.status s.actions.next = .unborn := by
    simp [jobs_status, rowJob]
  have hjobs : (s.stage row).jobs = s.jobs.setStatus s.actions.next .free := by
    refine Jobs.ext (funext fun k => ?_) rfl rfl
    rw [Jobs.setStatus_status]
    rw [jobs_status, AgentState.stage, Table.get?_insert, Table.next_insert]
    by_cases hk : k = s.actions.next
    · rw [if_pos hk, if_pos hk, rowJob, hrow, ActionStatus.job]
    · have hlt : k < s.actions.next + 1 ↔ k < s.actions.next := by omega
      rw [if_neg hk, if_neg hk, jobs_status]
      cases s.actions.get? k with
      | none => simp only [rowJob, hlt]
      | some row => rfl
  rw [hjobs]
  exact .create _ hborn

/-- Rows rewritten at once: a pending one may be cancelled. -/
theorem jobs_mapRows {f : Nat → AgentPendingAction J → AgentPendingAction J}
    (hf : ∀ k row, (f k row).status = row.status ∨ row.status = .pending ∧ (f k row).status = .cancelled) :
    Jobs.Step s.jobs { s with actions := s.actions.mapRows f : AgentState J A W }.jobs := by
  classical
  let doomed : Nat → Prop := fun k => ∃ row, s.actions.get? k = some row ∧ (f k row).status ≠ row.status
  let mapped : AgentState J A W := { s with actions := s.actions.mapRows f }
  have hstatus : ∀ k, mapped.jobs.status k =
      if doomed k ∧ s.jobs.status k = .free then .spoiled else s.jobs.status k := by
    intro k
    have hmap : mapped.actions.get? k = (s.actions.get? k).map (f k) := Table.get?_mapRows ..
    obtain hk | ⟨row, hk⟩ := Option.eq_none_or_eq_some (s.actions.get? k)
    · have hno : ¬ doomed k := by
        rintro ⟨row, hrow, -⟩
        rw [hk] at hrow
        cases hrow
      rw [if_neg (fun hc => hno hc.1), jobs_status, jobs_status, hmap, hk]
      rfl
    · have hold := jobStatus_of_get? hk
      rw [hk, Option.map_some] at hmap
      rw [jobStatus_of_get? hmap]
      rcases hf k row with hsame | ⟨hpending, hcancelled⟩
      · have hno : ¬ doomed k := by
          rintro ⟨row', hrow, hne⟩
          obtain rfl := Option.some.inj (hk.symm.trans hrow)
          exact hne hsame
        rw [if_neg (fun hc => hno hc.1), hold, hsame]
      · have hyes : doomed k := ⟨row, hk, by rw [hpending, hcancelled]; decide⟩
        rw [hpending] at hold
        rw [if_pos ⟨hyes, hold⟩, hcancelled]
        rfl
  have hjobs : mapped.jobs =
      { s.jobs with status := fun k => if doomed k ∧ s.jobs.status k = .free then .spoiled else s.jobs.status k } :=
    Jobs.ext (funext hstatus) rfl rfl
  have hstep : Jobs.Step s.jobs mapped.jobs := hjobs ▸ .cancel doomed
  exact hstep

theorem cancelRow_status (now : Int) (row : AgentPendingAction J) :
    (cancelRow now row).status = row.status ∨ row.status = .pending ∧ (cancelRow now row).status = .cancelled := by
  unfold cancelRow
  split
  · exact .inr ⟨‹_›, rfl⟩
  · exact .inl rfl

theorem jobs_cancel (actionId : Nat) (now : Int) : Jobs.Step s.jobs (s.update actionId (cancelRow now)).jobs :=
  jobs_mapRows fun k row => by
    split
    · exact cancelRow_status now row
    · exact .inl rfl

/-- The update of `finish`, by what it makes of a row that is executing. -/
theorem jobs_finishRow (verdict : Verdict J) :
    (s.update i (finishRow verdict)).jobs =
      if s.jobs.status i = .held then s.jobs.setStatus i verdict.status.job else s.jobs := by
  rcases hi : s.actions.get? i with _ | row
  · rw [if_neg (jobStatus_of_none hi), update_of_none hi]
  · have hstatus := jobStatus_of_get? hi
    rw [jobs_update hi]
    by_cases hheld : row.status = .executing
    · rw [if_pos (hstatus.trans (job_eq_held.mpr hheld)), finishRow, if_pos hheld]
    · rw [if_neg fun he => hheld (job_eq_held.mp (hstatus.symm.trans he)), finishRow, if_neg hheld, ← hstatus,
        Jobs.setStatus_self]

/-- `finish` is the end of a job for the request that is done with it. -/
theorem jobs_finish {verdict : Verdict J} (hr : s.jobs.claim id = verdict.claim i) :
    Jobs.Step s.jobs (s.update i (finishRow verdict)).jobs := by
  rw [jobs_finishRow]
  unfold Verdict.claim at hr
  rcases verdict.final with h | h | h
  · rw [h] at hr ⊢
    exact .close id i hr
  · rw [h] at hr ⊢
    exact .close id i hr
  · rw [h] at hr ⊢
    exact .spoil id i hr

/-- The release hands the job back. -/
theorem jobs_release (hr : s.requests.get? id = some r) (hclaim : r.phase.claim = .holding i)
    (hr' : r'.phase.claim = .idle) : Jobs.Step s.jobs ((s.update i releaseRow).goto id r').jobs := by
  have hrelease := Jobs.Step.release id i ((jobClaim_of_get? hr).trans hclaim)
  rw [jobs_goto (s := s.update i releaseRow) hr, hr']
  rcases hi : s.actions.get? i with _ | row
  · rw [if_neg (jobStatus_of_none hi)] at hrelease
    rwa [update_of_none hi]
  · rw [jobs_update hi]
    have hstatus := jobStatus_of_get? hi
    by_cases hheld : row.status = .executing
    · rw [if_pos (hstatus.trans (job_eq_held.mpr hheld))] at hrelease
      rwa [releaseRow, if_pos hheld]
    · rw [if_neg fun he => hheld (job_eq_held.mp (hstatus.symm.trans he))] at hrelease
      rw [releaseRow, if_neg hheld, ← hstatus, Jobs.setStatus_self]
      exact hrelease

/-! ## Every step is a step of the jobs -/

@[simp] theorem goto_claim (phase : AgentPhase J A W) : (r.goto phase).phase.claim = phase.claim := rfl

@[simp] theorem raise_claim (error : ToolError) : (r.raise error).phase.claim = .idle := by
  unfold AgentRequest.raise
  split <;> rfl

@[simp] theorem reply_claim (reply : AgentReply J) : (r.reply reply).phase.claim = .idle := rfl

/-- How a step that writes no row moves the claim of its request. -/
inductive ClaimMove (c c' : Claim Nat) : Prop
  | same : c' = c → ClaimMove c c'
  | idle : c' = .idle → ClaimMove c c'
  | quit (k : Nat) : c = .holding k → c' = .quitting k → ClaimMove c c'
  | fail (k : Nat) : c = .holding k ∨ c = .quitting k → c' = .closing k → ClaimMove c c'

theorem ClaimMove.jobs (hr : s.requests.get? id = some r) (h : ClaimMove r.phase.claim r'.phase.claim) :
    Jobs.Steps s.jobs (s.goto id r').jobs := by
  rw [jobs_goto hr]
  have hclaim := jobClaim_of_get? hr
  cases h with
  | same h =>
    rw [h, ← hclaim, Jobs.setClaim_self]
  | idle h =>
    rw [h]
    exact .single (.drop id)
  | quit k hk hk' =>
    rw [hk']
    exact .single (.quit id k (hclaim.trans hk))
  | fail k hk hk' =>
    rw [hk']
    rcases hk with hk | hk
    · rw [← Jobs.setClaim_setClaim (.quitting k)]
      exact .tail (.single (.quit id k (hclaim.trans hk))) (.fail id k (by simp))
    · exact .single (.fail id k (hclaim.trans hk))

theorem claim_ofFailure (failure : HookFailure) (actionId : Nat) :
    (Verdict.ofFailure failure : Verdict J).claim actionId = .closing actionId := by
  cases failure <;> rfl

/-- The preview of a confirm leads to `execute` or gives it up. -/
theorem confirmPreview_claim (w : W) (clock : Int) (claimed : ClaimedAction J) (spec : ToolSpec J A W) (args : A) :
    ClaimMove (.holding claimed.actionId) (confirmPreview env w clock r claimed spec args).claim := by
  simp only [confirmPreview]
  split
  · exact .fail _ (.inl rfl) (claim_ofFailure _ _)
  · split
    · exact .same rfl
    · split
      · exact .fail _ (.inl rfl) (claim_ofFailure _ _)
      · exact .quit _ rfl rfl

theorem agentRead_claim (h : agentRead env s r = some r') : ClaimMove r.phase.claim r'.phase.claim := by
  cases hp : r.phase with
  | proposing | counting | drafting | confirming | missed | cancelling =>
    -- nothing is claimed yet, and the claim is a step that writes
    refine .idle ?_
    simp only [agentRead, hp] at h
    repeat' split at h
    all_goals
      obtain rfl := Option.some.inj h
      first | exact raise_claim _ | rfl
  | loading actionId now =>
    simp only [agentRead, hp] at h
    split at h
    · obtain rfl := Option.some.inj h
      exact .idle rfl
    · split at h
      all_goals
        obtain rfl := Option.some.inj h
        exact .same rfl
  | gating claimed =>
    simp only [agentRead, hp] at h
    split at h
    · obtain rfl := Option.some.inj h
      exact .fail _ (.inl rfl) (claim_ofFailure _ _)
    · obtain rfl := Option.some.inj h
      exact .same rfl
  | previewing claimed spec args =>
    simp only [agentRead, hp] at h
    obtain rfl := Option.some.inj h
    exact confirmPreview_claim s.world s.clock claimed spec args
  | executing claimed spec args seen preview =>
    simp only [agentRead, hp] at h
    split at h
    · cases h
    · obtain rfl := Option.some.inj h
      exact .fail _ (.inl rfl) (claim_ofFailure _ _)
  | leaving claimed verdict =>
    simp only [agentRead, hp] at h
    split at h
    all_goals
      obtain rfl := Option.some.inj h
      exact .idle (by simp)
  | staging | claiming | releasing | finishing | cleaning | withdrawing | retracting | done =>
    simp only [agentRead, hp] at h
    cases h

theorem escape_claim (phase : AgentPhase J A W) : ClaimMove phase.claim phase.escape.claim := by
  cases phase with
  | gating | previewing | executing => exact .fail _ (.inl rfl) rfl
  | finishing claimed verdict | leaving claimed verdict =>
    simp only [AgentPhase.claim, AgentPhase.escape, Verdict.claim]
    split
    · exact .fail _ (.inr rfl) rfl
    · exact .same rfl
  | _ => exact .idle rfl

theorem newRow_status {now : Int} {ctx : ToolContext} {spec : ToolSpec J A W} {argsJson : J} {preview : Preview J}
    {mode : ActionMode} {row : AgentPendingAction J}
    (h : newRow env now ctx spec argsJson preview mode = .ok row) : row.status = .pending := by
  simp only [newRow] at h
  obtain ⟨_, _, h⟩ := bind_eq_ok.mp h
  obtain ⟨_, _, h⟩ := bind_eq_ok.mp h
  obtain ⟨risk, _, h⟩ := bind_eq_ok.mp h
  obtain rfl := Except.ok.inj h
  rfl

/-- The fresh row of a verdict is one `_new_row` made. -/
def AgentPhase.FreshPending : AgentPhase J A W → Prop
  | .finishing _ verdict => ∀ fresh, verdict.fresh = some fresh → fresh.status = .pending
  | _ => True

theorem agentWrite_jobs (hr : s.requests.get? id = some r) (hfresh : r.phase.FreshPending)
    (h : agentWrite env s id r = some s') : Jobs.Steps s.jobs s'.jobs := by
  have hclaim := jobClaim_of_get? hr
  cases hp : r.phase with
  | staging spec args preview =>
    simp only [agentWrite, hp] at h
    split at h
    · obtain rfl := Option.some.inj h
      exact ClaimMove.jobs hr (.idle (raise_claim _))
    · obtain rfl := Option.some.inj h
      exact ClaimMove.jobs hr (.idle rfl)
    · obtain rfl := Option.some.inj h
      rename_i row hrow
      refine .trans (.single (jobs_stage (newRow_status hrow))) ?_
      refine ClaimMove.jobs (s := s.stage row) hr (.idle ?_)
      split <;> rfl
  | claiming actionId now =>
    simp only [agentWrite, hp] at h
    split at h
    · obtain rfl := Option.some.inj h
      rename_i hany
      obtain ⟨row, hrow, hclaimable⟩ := (Option.any_eq_true _ _).mp hany
      have hpending : row.status = .pending := by
        simp only [claimable, Bool.and_eq_true, beq_iff_eq] at hclaimable
        exact hclaimable.1.1.2
      have hfree : s.jobs.status actionId = .free := by
        rw [jobStatus_of_get? hrow, hpending]
        rfl
      rw [jobs_goto (s := s.update actionId _) hr, jobs_update hrow]
      exact .single (.claim id actionId hfree (by rw [hclaim, hp]; rfl))
    · obtain rfl := Option.some.inj h
      exact ClaimMove.jobs hr (.idle rfl)
  | releasing claimed =>
    simp only [agentWrite, hp] at h
    obtain rfl := Option.some.inj h
    exact .single (jobs_release hr (by rw [hp]; rfl) (raise_claim _))
  | finishing claimed verdict =>
    simp only [agentWrite, hp] at h
    obtain rfl := Option.some.inj h
    have hclosing : s.jobs.claim id = verdict.claim claimed.actionId := by rw [hclaim, hp]; rfl
    refine .trans (.single (jobs_finish hclosing)) ?_
    have hsame : ClaimMove r.phase.claim (r.goto (.leaving claimed verdict)).phase.claim := .same (by rw [hp]; rfl)
    rcases hf : verdict.fresh with _ | fresh
    · exact ClaimMove.jobs (s := s.update claimed.actionId _) hr hsame
    · rw [hp, AgentPhase.FreshPending] at hfresh
      refine .trans (.single (jobs_stage (hfresh fresh hf))) ?_
      exact ClaimMove.jobs (s := (s.update claimed.actionId _).stage fresh) hr hsame
  | cleaning claimed =>
    simp only [agentWrite, hp] at h
    obtain rfl := Option.some.inj h
    have hclosing : s.jobs.claim id = (Verdict.ofFailure .exception : Verdict J).claim claimed.actionId := by
      rw [hclaim, hp]
      rfl
    refine .trans (.single (jobs_finish hclosing)) ?_
    exact ClaimMove.jobs (s := s.update claimed.actionId _) hr (.idle rfl)
  | withdrawing actionId now =>
    simp only [agentWrite, hp] at h
    split at h
    · obtain rfl := Option.some.inj h
      refine .trans (.single (jobs_cancel actionId now)) ?_
      exact ClaimMove.jobs (s := s.update actionId _) hr (.idle rfl)
    · obtain rfl := Option.some.inj h
      exact ClaimMove.jobs hr (.idle rfl)
  | retracting actionId error =>
    simp only [agentWrite, hp] at h
    obtain rfl := Option.some.inj h
    refine .trans (.single (jobs_cancel actionId s.clock)) ?_
    exact ClaimMove.jobs (s := s.update actionId _) hr (.idle rfl)
  | _ =>
    simp only [agentWrite, hp] at h
    cases h

/-- A request begins with nothing. -/
theorem jobs_begin (hr : r.phase.claim = .idle) :
    { s with requests := s.requests.insert r : AgentState J A W }.jobs = s.jobs := by
  refine Jobs.ext rfl (funext fun x => ?_) rfl
  rw [jobs_claim, jobs_claim, Table.get?_insert]
  by_cases hx : x = s.requests.next
  · rw [if_pos hx, hx, Table.get?_next]
    exact hr
  · rw [if_neg hx]

theorem jobs_deleteRows (actionIds : List Nat) :
    Jobs.Step s.jobs { s with actions := s.actions.remove (actionIds.contains ·) : AgentState J A W }.jobs := by
  let pruned : AgentState J A W := { s with actions := s.actions.remove (actionIds.contains ·) }
  have hstatus : ∀ k, pruned.jobs.status k =
      if k ∈ actionIds ∧ s.jobs.status k ≠ .unborn then .gone else s.jobs.status k := by
    intro k
    have hget : pruned.actions.get? k = if actionIds.contains k then none else s.actions.get? k := Table.get?_remove ..
    have hborn : s.jobs.status k ≠ .unborn ↔ k < s.actions.next := by
      rw [jobs_status]
      obtain hk | ⟨row, hk⟩ := Option.eq_none_or_eq_some (s.actions.get? k)
      · rw [hk, rowJob]
        split <;> simp [*]
      · have hlt := Table.get?_lt_next hk
        rw [hk, rowJob]
        cases row.status <;> simp [ActionStatus.job, hlt]
    rw [jobs_status, hget]
    by_cases hmem : k ∈ actionIds
    · rw [if_pos (by simpa using hmem)]
      by_cases hlt : k < s.actions.next
      · rw [if_pos ⟨hmem, hborn.mpr hlt⟩]
        exact if_pos hlt
      · rw [if_neg (c := k ∈ actionIds ∧ _) fun hc => hlt (hborn.mp hc.2), not_not.mp (mt hborn.mp hlt)]
        exact if_neg hlt
    · rw [if_neg (by simpa using hmem), if_neg fun hc => hmem hc.1]
      rfl
  have hjobs : pruned.jobs =
      { s.jobs with status := fun k => if k ∈ actionIds ∧ s.jobs.status k ≠ .unborn then .gone else s.jobs.status k } :=
    Jobs.ext (funext hstatus) rfl rfl
  have hstep : Jobs.Step s.jobs pruned.jobs := hjobs ▸ .forget (· ∈ actionIds)
  exact hstep

theorem afterExecute_claim (claimed : ClaimedAction J) (outcome : ExecuteOutcome J) :
    (afterExecute claimed outcome : AgentPhase J A W).claim = .closing claimed.actionId ∨
      (afterExecute claimed outcome : AgentPhase J A W).claim = .idle := by
  cases outcome with
  | failed failure => exact .inl (claim_ofFailure failure claimed.actionId)
  | returned | escaped => exact .inl rfl
  | crashed => exact .inr rfl

/-- A call of `execute` runs the job, whatever comes of it. -/
theorem jobs_execute (hr : s.requests.get? id = some r) {claimed : ClaimedAction J}
    (hclaim : r.phase.claim = .holding claimed.actionId) (outcome : ExecuteOutcome J) (world : W)
    {execution : Execution J A W} (he : execution.claimed = claimed) :
    Jobs.Steps s.jobs ((s.executed world execution).goto id (r.goto (afterExecute claimed outcome))).jobs := by
  have hrun := Jobs.Step.run id claimed.actionId ((jobClaim_of_get? hr).trans hclaim)
  have hjobs : { s.jobs.setClaim id (.closing claimed.actionId) with ran := claimed.actionId :: s.jobs.ran } =
      (s.executed world execution).jobs.setClaim id (.closing claimed.actionId) :=
    Jobs.ext rfl rfl (by rw [← he]; rfl)
  rw [hjobs] at hrun
  rw [jobs_goto (s := s.executed world execution) hr, goto_claim]
  rcases afterExecute_claim (A := A) (W := W) claimed outcome with hc | hc
  · rw [hc]
    exact .single hrun
  · rw [hc, ← Jobs.setClaim_setClaim (.closing claimed.actionId)]
    exact .tail (.single hrun) (.drop id)

/-- **Every step of the engine is steps of the jobs.** -/
theorem agentStep_jobs {e : AgentEvent J A W} (hfresh : ∀ id r, s.requests.get? id = some r → r.phase.FreshPending)
    (h : agentStep env s e = .ok s') : Jobs.Steps s.jobs s'.jobs := by
  cases e with
  | propose | confirm | cancel =>
    obtain rfl := Except.ok.inj h
    rw [jobs_begin rfl]
  | next id =>
    obtain ⟨r, hr, h⟩ := bind_eq_ok.mp h
    rw [found_eq_ok] at hr
    rcases hread : agentRead env s r with _ | r'
    · simp only [hread] at h
      rw [found_eq_ok] at h
      exact agentWrite_jobs hr (hfresh id r hr) h
    · simp only [hread] at h
      obtain rfl := Except.ok.inj h
      exact (agentRead_claim hread).jobs hr
  | limit id error =>
    obtain ⟨r, hr, h⟩ := bind_eq_ok.mp h
    rw [found_eq_ok] at hr
    obtain ⟨_, _, h⟩ := bind_eq_ok.mp h
    obtain rfl := Except.ok.inj h
    exact ClaimMove.jobs hr (.idle (raise_claim _))
  | execute id outcome world =>
    obtain ⟨r, hr, h⟩ := bind_eq_ok.mp h
    rw [found_eq_ok] at hr
    cases hp : r.phase with
    | executing claimed spec args seen preview =>
      simp only [hp] at h
      obtain ⟨_, _, h⟩ := bind_eq_ok.mp h
      obtain rfl := Except.ok.inj h
      exact jobs_execute hr (by rw [hp]; rfl) outcome world rfl
    | _ =>
      simp only [hp] at h
      cases h
  | escape id =>
    obtain ⟨r, hr, h⟩ := bind_eq_ok.mp h
    rw [found_eq_ok] at hr
    obtain ⟨_, _, h⟩ := bind_eq_ok.mp h
    obtain rfl := Except.ok.inj h
    exact ClaimMove.jobs hr (escape_claim _)
  | crash id =>
    obtain ⟨r, hr, h⟩ := bind_eq_ok.mp h
    rw [found_eq_ok] at hr
    obtain ⟨_, _, h⟩ := bind_eq_ok.mp h
    obtain rfl := Except.ok.inj h
    exact ClaimMove.jobs hr (.idle rfl)
  | revoke tokenIds =>
    obtain rfl := Except.ok.inj h
    refine .single (jobs_mapRows fun k row => ?_)
    split
    · exact cancelRow_status s.clock row
    · exact .inl rfl
  | deleteToken tokenId =>
    obtain rfl := Except.ok.inj h
    refine .single (jobs_mapRows fun k row => .inl ?_)
    split <;> rfl
  | deleteRows actionIds =>
    obtain rfl := Except.ok.inj h
    exact .single (jobs_deleteRows actionIds)
  | change | tick =>
    obtain rfl := Except.ok.inj h
    exact .refl

end BetterDecision
