import BetterDecision.Model.OAuthGrants

/-!
# Grants are used once

The row and the history say the same thing: the current hash is that of the last token
handed out, the previous hash that of the one before, and the tokens rotated are all but
the last (`GrantHistory`). One transaction at a time has the row written, and what its
guards found is still so when it commits (`GrantKnows`).
-/

namespace BetterDecision

variable {env : OAuthEnv} {rowLocks : Bool} {w w' : GrantWorld} {id : Nat} {tx : GrantTx} {phase : GrantPhase}

/-! ## What a step can do -/

/-- A phase in which a transaction remembers nothing of the row, and has handed out nothing. -/
def GrantPhase.isPlain : GrantPhase → Bool
  | .exchanging _ _ => false
  | .matched _ _ _ _ => false
  | .downgrading _ => false
  | .written _ _ => false
  | .done outcome => (handedOut outcome).isEmpty
  | _ => true

theorem GrantPhase.not_written {phase : GrantPhase} (h : phase.isPlain = true) : phase.isWritten = false := by
  cases phase <;> first | rfl | cases h

/-- Where a step can take one transaction, and what it has checked by then. -/
inductive GrantTurn (env : OAuthEnv) (rowLocks : Bool) (w : GrantWorld) (id : Nat) (tx : GrantTx) :
    Option String → GrantPhase → Prop
  | plain {phase : GrantPhase} {new : Option String} (h : phase.isPlain = true) : GrantTurn env rowLocks w id tx new phase
  | exchanging {new : Option String} :
      GrantTurn env rowLocks w id tx new (.exchanging tx.snapshot.scope tx.snapshot.createdAt)
  | matched {hash : String} {now : Int} {form : RefreshForm} {new : Option String} (call : tx.call = .refresh form)
      (ours : hash ∈ env.tokenHashCandidates form.refreshToken) :
      GrantTurn env rowLocks w id tx new (.matched hash now w.row.scope w.row.createdAt)
  | downgrading {scope : AgentScope} {new : Option String} (lower : scope.rank < tx.snapshot.scope.rank) :
      GrantTurn env rowLocks w id tx new (.downgrading scope)
  | redeem {form : ExchangeForm} {scope : AgentScope} {createdAt : Int} {new : String}
      (call : tx.call = .exchange form) (was : tx.phase = .exchanging scope createdAt) (free : ¬ w.Held rowLocks id) (unused : w.row.refreshHash = none) (live : w.row.revokedAt = none) :
      GrantTurn env rowLocks w id tx (some new) (.written (.redeem w.clock (env.hashApiToken new) createdAt)
        (.ok (some { refreshToken := new, scope })))
  | rotate {hash new : String} {now createdAt : Int} {scope answer : AgentScope} {form : RefreshForm}
      {asked : Option AgentScope} (call : tx.call = .refresh form) (was : tx.phase = .matched hash now scope createdAt)
      (free : ¬ w.Held rowLocks id) (current : w.row.refreshHash = some hash) (live : w.row.revokedAt = none)
      (same : w.row.scope = scope) :
      GrantTurn env rowLocks w id tx (some new)
        (.written (.rotate now (env.hashApiToken new) hash createdAt (narrowedScope asked scope))
          (.ok (some { refreshToken := new, scope := answer })))
  | revoke {now : Int} {outcome : GrantOutcome} {new : Option String} (free : ¬ w.Held rowLocks id)
      (silent : handedOut outcome = []) : GrantTurn env rowLocks w id tx new (.written (.revoke now) outcome)
  | nothing {outcome : GrantOutcome} {new : Option String} (free : ¬ w.Held rowLocks id)
      (silent : handedOut outcome = []) : GrantTurn env rowLocks w id tx new (.written .nothing outcome)
  | downgrade {scope : AgentScope} {new : Option String} (free : ¬ w.Held rowLocks id)
      (was : tx.phase = .downgrading scope) :
      GrantTurn env rowLocks w id tx new (.written (.downgrade scope) (.ok none))

/-- The refresh token drawn for an event. -/
def GrantEvent.drawn : GrantEvent → Option String
  | .update _ new => some new
  | _ => none

inductive GrantMove (env : OAuthEnv) (rowLocks : Bool) (w : GrantWorld) : GrantEvent → GrantWorld → Prop
  | begin (call : GrantCall) :
      GrantMove env rowLocks w (.begin call) { w with txs := w.txs.insert { call, snapshot := w.row } }
  | tick (seconds : Nat) : GrantMove env rowLocks w (.tick seconds) { w with clock := w.clock + seconds }
  | turn {ev : GrantEvent} {id : Nat} {tx : GrantTx} {phase : GrantPhase} (at_ : w.txs.get? id = some tx)
      (turn : GrantTurn env rowLocks w id tx ev.drawn phase) : GrantMove env rowLocks w ev (w.goto id phase)
  | commit {id : Nat} {tx : GrantTx} {write : GrantWrite} {outcome : GrantOutcome} (at_ : w.txs.get? id = some tx)
      (phase : tx.phase = .written write outcome) :
      GrantMove env rowLocks w (.commit id)
        { (w.goto id (.done outcome)) with
          row := write.apply w.row
          issued := handedOut outcome ++ w.issued
          rotated := write.rotates tx.call ++ w.rotated
          redeemed := w.redeemed + write.redeems }

theorem waitAndGoto_ok (h : w.waitAndGoto rowLocks id phase = .ok w') : ¬ w.Held rowLocks id ∧ w' = w.goto id phase := by
  obtain ⟨_, hfree, h⟩ := bind_eq_ok.mp h
  exact ⟨refuse_eq_ok.mp hfree, (Except.ok.inj h).symm⟩

theorem readExchange_turn (new : Option String) (form : ExchangeForm) :
    GrantTurn env rowLocks w id tx new (readExchange env tx.snapshot form) := by
  unfold readExchange
  repeat' split
  all_goals first | exact .plain rfl | exact .exchanging

theorem readRefresh_turn (new : Option String) (form : RefreshForm) :
    GrantTurn env rowLocks w id tx new (readRefresh env tx.snapshot form) := by
  unfold readRefresh
  repeat' split
  all_goals exact .plain rfl

theorem lockRefresh_turn (new : Option String) {form : RefreshForm} (hcall : tx.call = .refresh form) (now : Int) :
    GrantTurn env rowLocks w id tx new (lockRefresh env w.row form now) := by
  unfold lockRefresh
  split
  · rename_i hash hmatched
    obtain ⟨-, hours⟩ := Option.filter_eq_some_iff.mp hmatched
    split
    · exact .plain rfl
    · split
      · exact .plain rfl
      · split
        · exact .plain rfl
        · exact .matched hcall (of_decide_eq_true hours)
  · split
    · exact .plain rfl
    · exact .plain rfl

theorem updateExchange_turn {form : ExchangeForm} {scope : AgentScope} {createdAt : Int} {new : String}
    (hcall : tx.call = .exchange form) (hphase : tx.phase = .exchanging scope createdAt) (hfree : ¬ w.Held rowLocks id) :
    GrantTurn env rowLocks w id tx (some new) (updateExchange env w.row form w.clock scope createdAt new) := by
  unfold updateExchange
  split
  · rename_i hguard
    exact .redeem hcall hphase hfree hguard.2.1 hguard.2.2.1
  · exact .plain rfl

theorem updateRefresh_turn {form : RefreshForm} {hash new : String} {now createdAt : Int} {scope : AgentScope}
    (hcall : tx.call = .refresh form) (hphase : tx.phase = .matched hash now scope createdAt)
    (hfree : ¬ w.Held rowLocks id) :
    GrantTurn env rowLocks w id tx (some new) (updateRefresh env w.row form hash now scope createdAt new) := by
  unfold updateRefresh
  dsimp only
  split
  · rename_i hguard
    exact .rotate hcall hphase hfree hguard.1 hguard.2.1 hguard.2.2
  · exact .plain rfl

theorem grantStep_move {ev : GrantEvent} (h : grantStep env rowLocks w ev = .ok w') : GrantMove env rowLocks w ev w' := by
  cases ev with
  | begin call => exact Except.ok.inj h ▸ .begin call
  | tick seconds => exact Except.ok.inj h ▸ .tick seconds
  | read id =>
    obtain ⟨tx, htx, h⟩ := bind_eq_ok.mp h
    have htx := found_eq_ok.mp htx
    split at h
    · exact Except.ok.inj h ▸ .turn htx (readExchange_turn _ _)
    · exact Except.ok.inj h ▸ .turn htx (readRefresh_turn _ _)
    · refine Except.ok.inj h ▸ .turn htx (.plain ?_)
      split <;> rfl
    · refine Except.ok.inj h ▸ .turn htx ?_
      split
      · exact .plain rfl
      · split
        · exact .plain rfl
        · exact .downgrading (Nat.lt_of_not_le ‹_›)
    · cases h
  | lock id =>
    obtain ⟨tx, htx, h⟩ := bind_eq_ok.mp h
    have htx := found_eq_ok.mp htx
    split at h
    · rename_i form hphase hcall
      obtain ⟨-, rfl⟩ := waitAndGoto_ok h
      exact .turn htx (lockRefresh_turn _ hcall _)
    · obtain ⟨-, rfl⟩ := waitAndGoto_ok h
      refine .turn htx (.plain ?_)
      unfold relock
      split <;> rfl
    · cases h
  | update id new =>
    obtain ⟨tx, htx, h⟩ := bind_eq_ok.mp h
    have htx := found_eq_ok.mp htx
    split at h
    · rename_i hphase hcall
      obtain ⟨hfree, rfl⟩ := waitAndGoto_ok h
      exact .turn htx (updateExchange_turn hcall hphase hfree)
    · rename_i hphase hcall
      obtain ⟨hfree, rfl⟩ := waitAndGoto_ok h
      exact .turn htx (updateRefresh_turn hcall hphase hfree)
    · cases h
  | stamp id =>
    obtain ⟨tx, htx, h⟩ := bind_eq_ok.mp h
    have htx := found_eq_ok.mp htx
    split at h
    · obtain ⟨hfree, rfl⟩ := waitAndGoto_ok h
      refine .turn htx ?_
      split
      · exact .revoke hfree rfl
      · exact .nothing hfree rfl
    · obtain ⟨hfree, rfl⟩ := waitAndGoto_ok h
      exact .turn htx (.revoke hfree rfl)
    · rename_i hphase
      obtain ⟨hfree, rfl⟩ := waitAndGoto_ok h
      exact .turn htx (.downgrade hfree hphase)
    · cases h
  | commit id =>
    obtain ⟨tx, htx, h⟩ := bind_eq_ok.mp h
    split at h
    · exact Except.ok.inj h ▸ .commit (found_eq_ok.mp htx) ‹_›
    · cases h
  | fail id =>
    obtain ⟨tx, htx, h⟩ := bind_eq_ok.mp h
    split at h
    · cases h
    · exact Except.ok.inj h ▸ .turn (found_eq_ok.mp htx) (.plain rfl)

/-! ## What every run keeps -/

/-- The row and the history say the same thing. -/
structure GrantHistory (env : OAuthEnv) (w : GrantWorld) : Prop where
  current : w.row.refreshHash = w.issued.head?.map env.hashApiToken
  previous : w.row.refreshPrevHash = w.issued.tail.head?.map env.hashApiToken
  rotated : w.rotated = w.issued.tail
  redeemed : w.redeemed = if w.issued = [] then 0 else 1
  fresh : w.issued.Nodup
  expiry : ∀ e, w.row.refreshExpiresAt = some e → e ≤ w.row.createdAt + refreshMax
  scope : w.row.scope ∈ oauthScopes

theorem GrantHistory.elsewhere (h : GrantHistory env w) (clock : Int) (txs : Table GrantTx) :
    GrantHistory env { w with clock, txs } :=
  ⟨h.current, h.previous, h.rotated, h.redeemed, h.fresh, h.expiry, h.scope⟩

/-- What a transaction knows of the committed row. -/
def GrantKnows (env : OAuthEnv) (w : GrantWorld) (call : GrantCall) : GrantPhase → Prop
  | .exchanging _ createdAt => createdAt = w.row.createdAt
  | .matched hash _ _ createdAt =>
    createdAt = w.row.createdAt ∧ ∃ form, call = .refresh form ∧ hash ∈ env.tokenHashCandidates form.refreshToken
  | .downgrading scope => scope = .read
  | .written (.redeem _ hash createdAt) outcome =>
    createdAt = w.row.createdAt ∧ w.row.refreshHash = none ∧ w.row.revokedAt = none ∧
      (∃ form, call = .exchange form) ∧
      ∃ new scope, hash = env.hashApiToken new ∧ outcome = .ok (some { refreshToken := new, scope }) ∧ new ∉ w.issued
  | .written (.rotate _ hash matched createdAt narrowed) outcome =>
    createdAt = w.row.createdAt ∧ w.row.refreshHash = some matched ∧ w.row.revokedAt = none ∧
      (∃ form, call = .refresh form ∧ matched ∈ env.tokenHashCandidates form.refreshToken) ∧
      (∀ s, narrowed = some s → s.rank < w.row.scope.rank) ∧
      ∃ new scope, hash = env.hashApiToken new ∧ outcome = .ok (some { refreshToken := new, scope }) ∧ new ∉ w.issued
  | .written (.downgrade scope) outcome => scope = .read ∧ handedOut outcome = []
  | .written (.revoke _) outcome => handedOut outcome = []
  | .written .nothing outcome => handedOut outcome = []
  | _ => True

structure GrantInv (env : OAuthEnv) (w : GrantWorld) : Prop where
  history : GrantHistory env w
  /-- One transaction has the row written. -/
  one : ∀ i j s t, w.txs.get? i = some s → w.txs.get? j = some t →
    s.phase.isWritten = true → t.phase.isWritten = true → i = j
  knows : ∀ i s, w.txs.get? i = some s → GrantKnows env w s.call s.phase
  snapshots : ∀ i s, w.txs.get? i = some s →
    s.snapshot.createdAt = w.row.createdAt ∧ s.snapshot.scope ∈ oauthScopes

theorem scope_cases {s : AgentScope} (h : s ∈ oauthScopes) : s = .read ∨ s = .write := by
  simpa [oauthScopes] using h

/-- Only one scope is below one that OAuth grants. -/
theorem eq_read_of_lower {s t : AgentScope} (h : t ∈ oauthScopes) (hlt : s.rank < t.rank) : s = .read := by
  rcases scope_cases h with rfl | rfl <;> cases s <;> simp [AgentScope.rank] at hlt ⊢

theorem narrowedScope_lower {asked : Option AgentScope} {current s : AgentScope}
    (h : narrowedScope asked current = some s) : s.rank < current.rank := by
  obtain ⟨-, hlt⟩ := Option.filter_eq_some_iff.mp h
  simpa using hlt

/-- The refresh token an update draws was never handed out. -/
def FreshToken (w : GrantWorld) : GrantEvent → Prop
  | .update _ new => new ∉ w.issued
  | _ => True

instance decidableFreshToken (w : GrantWorld) (ev : GrantEvent) : Decidable (FreshToken w ev) :=
  match ev with
  | .update _ new => inferInstanceAs (Decidable (new ∉ w.issued))
  | .begin _ | .read _ | .lock _ | .stamp _ | .commit _ | .fail _ | .tick _ => .isTrue trivial

theorem GrantTurn.knows {new : Option String} (h : GrantTurn env rowLocks w id tx new phase)
    (hknows : GrantKnows env w tx.call tx.phase) (hnew : ∀ n, new = some n → n ∉ w.issued)
    (hsnap : tx.snapshot.createdAt = w.row.createdAt ∧ tx.snapshot.scope ∈ oauthScopes) :
    GrantKnows env w tx.call phase := by
  cases h with
  | plain h => cases phase <;> trivial
  | exchanging => exact hsnap.1
  | matched call ours => exact ⟨rfl, _, call, ours⟩
  | downgrading lower => exact eq_read_of_lower hsnap.2 lower
  | redeem call was free unused live =>
    rw [was] at hknows
    exact ⟨hknows, unused, live, ⟨_, call⟩, _, _, rfl, rfl, hnew _ rfl⟩
  | rotate call was free current live same =>
    rw [was] at hknows
    obtain ⟨hcreated, hours⟩ := hknows
    refine ⟨hcreated, current, live, hours, fun s hs => ?_, _, _, rfl, rfl, hnew _ rfl⟩
    rw [same]
    exact narrowedScope_lower hs
  | revoke free silent => exact silent
  | nothing free silent => exact silent
  | downgrade free was =>
    rw [was] at hknows
    exact ⟨hknows, rfl⟩

/-- Who has written the row found it free. -/
theorem GrantTurn.free {new : Option String} (h : GrantTurn env rowLocks w id tx new phase)
    (hwritten : phase.isWritten = true) : ¬ w.Held rowLocks id := by
  cases h with
  | plain h => rw [GrantPhase.not_written h] at hwritten; cases hwritten
  | exchanging | matched | downgrading => cases hwritten
  | redeem call was free => exact free
  | rotate call was free => exact free
  | revoke free => exact free
  | nothing free => exact free
  | downgrade free => exact free

theorem get?_grantGoto {i : Nat} {s : GrantTx} (htx : w.txs.get? id = some tx)
    (hs : (w.goto id phase).txs.get? i = some s) :
    (i = id ∧ s = { tx with phase }) ∨ (i ≠ id ∧ w.txs.get? i = some s) := by
  obtain ⟨old, hold, rfl⟩ := Table.get?_modify_eq_some.mp hs
  by_cases hi : i = id
  · subst hi
    obtain rfl := Option.some.inj (htx.symm.trans hold)
    exact .inl ⟨rfl, if_pos rfl⟩
  · exact .inr ⟨hi, by rw [if_neg hi]; exact hold⟩

theorem GrantInv.goto (rowLocks : Bool) (h : GrantInv env w) (htx : w.txs.get? id = some tx) (hknows : GrantKnows env w tx.call phase)
    (hfree : phase.isWritten = true → ¬ w.Held rowLocks id) : GrantInv env (w.goto id phase) := by
  have alone : ∀ i s, i ≠ id → w.txs.get? i = some s → phase.isWritten = true → ¬ s.phase.isWritten = true := by
    intro i s hi hs hwritten hsw
    exact hfree hwritten ⟨(i, s), Table.mem_rows.mpr hs, hi, by rw [hsw, Bool.true_or]⟩
  refine ⟨h.history.elsewhere _ _, fun i j s t hs ht' hsw htw => ?_, fun i s hs => ?_, fun i s hs => ?_⟩
  · rcases get?_grantGoto htx hs with ⟨rfl, rfl⟩ | ⟨hi, hs'⟩
    · rcases get?_grantGoto htx ht' with ⟨rfl, rfl⟩ | ⟨hj, ht''⟩
      · rfl
      · exact absurd htw (alone j t hj ht'' hsw)
    · rcases get?_grantGoto htx ht' with ⟨rfl, rfl⟩ | ⟨-, ht''⟩
      · exact absurd hsw (alone i s hi hs' htw)
      · exact h.one i j s t hs' ht'' hsw htw
  · rcases get?_grantGoto htx hs with ⟨rfl, rfl⟩ | ⟨-, hs'⟩
    · exact hknows
    · exact h.knows i s hs'
  · rcases get?_grantGoto htx hs with ⟨rfl, rfl⟩ | ⟨-, hs'⟩
    · exact h.snapshots i tx htx
    · exact h.snapshots i s hs'

/-- What a transaction that has not written the row knows is still so after a commit. -/
theorem GrantKnows.after {call : GrantCall} (h : GrantKnows env w call phase) (hnot : ¬ phase.isWritten = true)
    {row : ApiToken} (hcreated : row.createdAt = w.row.createdAt) (txs : Table GrantTx) (issued rotated : List String)
    (redeemed : Nat) : GrantKnows env { w with row, txs, issued, rotated, redeemed } call phase := by
  rcases phase with _ | ⟨scope, createdAt⟩ | _ | ⟨hash, now, scope, createdAt⟩ | _ | _ | _ | scope | ⟨write, outcome⟩ | _
  · trivial
  · exact h.trans hcreated.symm
  · trivial
  · exact ⟨h.1.trans hcreated.symm, h.2⟩
  · trivial
  · trivial
  · trivial
  · exact h
  · exact absurd rfl hnot
  · trivial

theorem refreshExpiry_le (createdAt now : Int) : refreshExpiry createdAt now ≤ createdAt + refreshMax := min_le_right _ _

/-- An unused code: nothing was handed out. -/
theorem GrantHistory.unused (h : GrantHistory env w) (hunused : w.row.refreshHash = none) : w.issued = [] := by
  have hcurrent := h.current
  rw [hunused] at hcurrent
  rcases hissued : w.issued with _ | ⟨t, ts⟩
  · rfl
  · rw [hissued] at hcurrent
    cases hcurrent

/-- Who presents a token of the current hash presents the last one handed out. -/
theorem GrantHistory.presented {hash token : String} (h : GrantHistory env w) (hcurrent : w.row.refreshHash = some hash)
    (hours : hash ∈ env.tokenHashCandidates token) : ∃ rest, w.issued = token :: rest := by
  have hhead := h.current.symm.trans hcurrent
  rcases hissued : w.issued with _ | ⟨t, ts⟩
  · rw [hissued] at hhead
    cases hhead
  · rw [hissued] at hhead
    have hsame : env.hashApiToken t = hash := Option.some.inj hhead
    exact ⟨ts, by rw [env.apart t token hash (hsame ▸ env.primary t) hours]⟩

/-- **A commit keeps the history.** -/
theorem GrantHistory.commit {call : GrantCall} {write : GrantWrite} {outcome : GrantOutcome} (h : GrantHistory env w)
    (hw : GrantKnows env w call (.written write outcome)) (txs : Table GrantTx) :
    GrantHistory env
      { w with
        row := write.apply w.row, txs, issued := handedOut outcome ++ w.issued
        rotated := write.rotates call ++ w.rotated, redeemed := w.redeemed + write.redeems } := by
  cases write with
  | redeem now hash createdAt =>
    obtain ⟨rfl, hunused, -, -, new, scope, rfl, rfl, hnew⟩ := hw
    -- nothing was handed out before
    have hnone : w.issued = [] := h.unused hunused
    have hprevious := h.previous
    have hrotated := h.rotated
    have hredeemed := h.redeemed
    rw [hnone] at hprevious hrotated hredeemed
    refine ⟨rfl, ?_, ?_, ?_, ?_, fun e he => ?_, h.scope⟩
    · exact hprevious.trans (by rw [hnone]; rfl)
    · exact hrotated.trans (by rw [hnone]; rfl)
    · show w.redeemed + 1 = _
      rw [hredeemed]
      rfl
    · rw [hnone]
      exact List.nodup_cons.mpr ⟨by simp, .nil⟩
    · obtain rfl := Option.some.inj he
      exact refreshExpiry_le _ _
  | rotate now hash matched createdAt narrowed =>
    obtain ⟨rfl, hcurrent, -, ⟨form, rfl, hours⟩, hnarrowed, new, scope, rfl, rfl, hnew⟩ := hw
    obtain ⟨rest, hissued⟩ := h.presented hcurrent hours
    refine ⟨rfl, ?_, ?_, ?_, List.nodup_cons.mpr ⟨hnew, h.fresh⟩, fun e he => ?_, ?_⟩
    · show some matched = w.issued.head?.map env.hashApiToken
      rw [← h.current, hcurrent]
    · show form.refreshToken :: w.rotated = w.issued
      rw [h.rotated, hissued]
      rfl
    · show w.redeemed + 0 = 1
      rw [h.redeemed, hissued]
      rfl
    · obtain rfl := Option.some.inj he
      exact refreshExpiry_le _ _
    · show narrowed.getD w.row.scope ∈ oauthScopes
      rcases narrowed with _ | s
      · exact h.scope
      · rw [Option.getD_some, eq_read_of_lower h.scope (hnarrowed s rfl)]
        decide
  | revoke now =>
    have hw : handedOut outcome = [] := hw
    rw [hw]
    exact ⟨h.current, h.previous, h.rotated, h.redeemed, h.fresh, h.expiry, h.scope⟩
  | downgrade scope =>
    obtain ⟨rfl, hsilent⟩ := hw
    rw [hsilent]
    refine ⟨h.current, h.previous, h.rotated, h.redeemed, h.fresh, h.expiry, ?_⟩
    show AgentScope.read ∈ oauthScopes
    decide
  | nothing =>
    have hw : handedOut outcome = [] := hw
    rw [hw]
    exact ⟨h.current, h.previous, h.rotated, h.redeemed, h.fresh, h.expiry, h.scope⟩

theorem createdAt_apply (write : GrantWrite) (row : ApiToken) : (write.apply row).createdAt = row.createdAt := by
  cases write <;> rfl

theorem GrantInv.move {ev : GrantEvent} (h : GrantInv env w) (hfresh : FreshToken w ev)
    (hm : GrantMove env rowLocks w ev w') : GrantInv env w' := by
  cases hm with
  | begin call =>
    have hget : ∀ i s, (w.txs.insert { call, snapshot := w.row }).get? i = some s →
        s = { call, snapshot := w.row } ∨ w.txs.get? i = some s := by
      intro i s hs
      rw [Table.get?_insert] at hs
      split at hs
      · exact .inl (Option.some.inj hs).symm
      · exact .inr hs
    refine ⟨h.history.elsewhere _ _, fun i j s t hs ht hsw htw => ?_, fun i s hs => ?_, fun i s hs => ?_⟩
    · rcases hget i s hs with rfl | hs
      · cases hsw
      · rcases hget j t ht with rfl | ht
        · cases htw
        · exact h.one i j s t hs ht hsw htw
    · rcases hget i s hs with rfl | hs
      · trivial
      · exact h.knows i s hs
    · rcases hget i s hs with rfl | hs
      · exact ⟨rfl, h.history.scope⟩
      · exact h.snapshots i s hs
  | tick seconds => exact ⟨h.history.elsewhere _ _, h.one, h.knows, h.snapshots⟩
  | @turn ev id tx phase at_ turn =>
    refine h.goto rowLocks at_ (turn.knows (h.knows id tx at_) (fun n hn => ?_) (h.snapshots id tx at_)) turn.free
    cases ev with
    | update id new => exact Option.some.inj hn ▸ hfresh
    | begin | read | lock | stamp | commit | fail | tick => cases hn
  | @commit id tx write outcome at_ phase =>
    have hw : GrantKnows env w tx.call (.written write outcome) := phase ▸ h.knows id tx at_
    have hdone : GrantInv env (w.goto id (.done outcome)) := h.goto false at_ trivial fun hw => by cases hw
    refine ⟨h.history.commit hw _, hdone.one, fun i s hs => ?_, fun i s hs => ?_⟩
    · rcases get?_grantGoto at_ hs with ⟨rfl, rfl⟩ | ⟨hi, hs'⟩
      · trivial
      · exact (h.knows i s hs').after
          (fun hsw => hi (h.one i id s tx hs' at_ hsw (by rw [phase]; rfl))) (createdAt_apply _ _) _ _ _ _
    · have hs' := hdone.snapshots i s hs
      exact ⟨hs'.1.trans (createdAt_apply _ _).symm, hs'.2⟩

/-! ## Answers -/

/-- The transaction has returned tokens. -/
def Answered (w : GrantWorld) (id : Nat) (call : GrantCall) (response : TokenResponse) : Prop :=
  ∃ tx, w.txs.get? id = some tx ∧ tx.call = call ∧ tx.phase = .done (.ok (some response))

/-- The history holds what was answered, and nothing was answered twice. -/
structure GrantAnswers (w : GrantWorld) : Prop where
  exchanged : ∀ i form r, Answered w i (.exchange form) r → w.redeemed ≠ 0
  refreshed : ∀ i form r, Answered w i (.refresh form) r → form.refreshToken ∈ w.rotated
  codeOnce : ∀ i j form form' r r', Answered w i (.exchange form) r → Answered w j (.exchange form') r' → i = j
  tokenOnce : ∀ i j form form' r r', Answered w i (.refresh form) r → Answered w j (.refresh form') r' →
    form.refreshToken = form'.refreshToken → i = j

/-- A turn answers nothing. -/
theorem GrantTurn.silent {new : Option String} (h : GrantTurn env rowLocks w id tx new phase)
    (response : TokenResponse) : phase ≠ .done (.ok (some response)) := by
  rintro rfl
  cases h with
  | plain h => cases h

/-- Whoever had an answer has it, and what was rotated or redeemed stays so. -/
theorem GrantAnswers.mono (h : GrantAnswers w)
    (hans : ∀ i call r, Answered w' i call r → Answered w i call r) (hrotated : w.rotated ⊆ w'.rotated)
    (hredeemed : w.redeemed ≤ w'.redeemed) : GrantAnswers w' where
  exchanged i form r ha := by
    have := h.exchanged i form r (hans _ _ _ ha)
    omega
  refreshed i form r ha := hrotated (h.refreshed i form r (hans _ _ _ ha))
  codeOnce i j form form' r r' ha hb := h.codeOnce i j form form' r r' (hans _ _ _ ha) (hans _ _ _ hb)
  tokenOnce i j form form' r r' ha hb := h.tokenOnce i j form form' r r' (hans _ _ _ ha) (hans _ _ _ hb)

/-- An answer is given by a commit that redeems the code, or rotates the token presented. -/
inductive GrantAnswer (w w' : GrantWorld) (id : Nat) (call : GrantCall) : Prop
  | redeemed (form : ExchangeForm) (exchange : call = .exchange form) (unused : w.redeemed = 0)
      (used : w'.redeemed = 1) (rotated : w'.rotated = w.rotated)
  | rotated (form : RefreshForm) (refresh : call = .refresh form) (current : form.refreshToken ∉ w.rotated)
      (rotated : w'.rotated = form.refreshToken :: w.rotated) (redeemed : w'.redeemed = w.redeemed)

/-- **Tokens are returned once by a code and once by a refresh token.** -/
theorem GrantAnswers.answer (h : GrantAnswers w) {new : GrantCall} (hnew : GrantAnswer w w' id new)
    (hans : ∀ i call r, Answered w' i call r → Answered w i call r ∨ i = id ∧ call = new) : GrantAnswers w' := by
  cases hnew with
  | redeemed form exchange unused used rotated =>
    have hfirst : ∀ i form r, ¬ Answered w i (.exchange form) r := fun i form r ha => h.exchanged i form r ha unused
    have hold : ∀ i form r, Answered w' i (.refresh form) r → Answered w i (.refresh form) r := by
      intro i form r ha
      rcases hans i _ r ha with ha | ⟨-, hcall⟩
      · exact ha
      · rw [exchange] at hcall
        cases hcall
    have hhere : ∀ i form r, Answered w' i (.exchange form) r → i = id := by
      intro i form r ha
      rcases hans i _ r ha with ha | ⟨hi, -⟩
      · exact absurd ha (hfirst i form r)
      · exact hi
    refine ⟨fun i form r _ => by omega, fun i form r ha => ?_, fun i j form form' r r' ha hb => ?_,
      fun i j form form' r r' ha hb => h.tokenOnce i j form form' r r' (hold _ _ _ ha) (hold _ _ _ hb)⟩
    · rw [rotated]
      exact h.refreshed i form r (hold _ _ _ ha)
    · rw [hhere i form r ha, hhere j form' r' hb]
  | rotated form refresh current rotated redeemed =>
    have hold : ∀ i form r, Answered w' i (.exchange form) r → Answered w i (.exchange form) r := by
      intro i form r ha
      rcases hans i _ r ha with ha | ⟨-, hcall⟩
      · exact ha
      · rw [refresh] at hcall
        cases hcall
    have hhere : ∀ i form' r, Answered w' i (.refresh form') r →
        Answered w i (.refresh form') r ∨ i = id ∧ form' = form := by
      intro i form' r ha
      rcases hans i _ r ha with ha | ⟨hi, hcall⟩
      · exact .inl ha
      · exact .inr ⟨hi, GrantCall.refresh.inj (hcall.trans refresh)⟩
    refine ⟨fun i form r ha => ?_, fun i form' r ha => ?_,
      fun i j form form' r r' ha hb => h.codeOnce i j form form' r r' (hold _ _ _ ha) (hold _ _ _ hb),
      fun i j form₁ form₂ r r' ha hb hsame => ?_⟩
    · rw [redeemed]
      exact h.exchanged i form r (hold _ _ _ ha)
    · rw [rotated]
      rcases hhere i form' r ha with ha | ⟨-, rfl⟩
      · exact List.mem_cons_of_mem _ (h.refreshed i form' r ha)
      · exact List.mem_cons_self
    · rcases hhere i form₁ r ha with ha | ⟨hi, rfl⟩
      · rcases hhere j form₂ r' hb with hb | ⟨-, rfl⟩
        · exact h.tokenOnce i j form₁ form₂ r r' ha hb hsame
        · exact absurd (hsame ▸ h.refreshed i form₁ r ha) current
      · rcases hhere j form₂ r' hb with hb | ⟨hj, -⟩
        · exact absurd (hsame ▸ h.refreshed j form₂ r' hb) current
        · rw [hi, hj]

/-- What a commit answers it did. -/
theorem GrantInv.answer (h : GrantInv env w) {write : GrantWrite} {outcome : GrantOutcome} {r : TokenResponse}
    (htx : w.txs.get? id = some tx) (hphase : tx.phase = .written write outcome) (hr : outcome = .ok (some r)) :
    w.row.revokedAt = none ∧
      GrantAnswer w
        { (w.goto id (.done outcome)) with
          row := write.apply w.row
          issued := handedOut outcome ++ w.issued
          rotated := write.rotates tx.call ++ w.rotated
          redeemed := w.redeemed + write.redeems } id tx.call := by
  have hw : GrantKnows env w tx.call (.written write outcome) := hphase ▸ h.knows id tx htx
  cases write with
  | redeem now hash createdAt =>
    obtain ⟨-, hunused, hlive, ⟨form, hcall⟩, -⟩ := hw
    have hnone : w.redeemed = 0 := by
      rw [h.history.redeemed, h.history.unused hunused]
      rfl
    exact ⟨hlive, .redeemed form hcall hnone (by show w.redeemed + 1 = 1; omega) rfl⟩
  | rotate now hash matched createdAt narrowed =>
    obtain ⟨-, hcurrent, hlive, ⟨form, hcall, hours⟩, -⟩ := hw
    obtain ⟨rest, hissued⟩ := h.history.presented hcurrent hours
    refine ⟨hlive, .rotated form hcall ?_ (by rw [hcall]; rfl) rfl⟩
    have hfresh := h.history.fresh
    rw [hissued] at hfresh
    rw [h.history.rotated, hissued]
    exact (List.nodup_cons.mp hfresh).1
  | revoke now =>
    have hsilent : handedOut outcome = [] := hw
    rw [hr] at hsilent
    cases hsilent
  | downgrade scope =>
    have hsilent : handedOut outcome = [] := hw.2
    rw [hr] at hsilent
    cases hsilent
  | nothing =>
    have hsilent : handedOut outcome = [] := hw
    rw [hr] at hsilent
    cases hsilent

/-- No step but a commit answers, and a commit answers one request. -/
theorem answered_move {ev : GrantEvent} (h : GrantInv env w) (hm : GrantMove env rowLocks w ev w') :
    (∀ i call r, Answered w' i call r → Answered w i call r) ∨
      w.row.revokedAt = none ∧ ∃ i new, GrantAnswer w w' i new ∧
        ∀ j call r, Answered w' j call r → Answered w j call r ∨ j = i ∧ call = new := by
  cases hm with
  | begin call =>
    refine .inl fun i call' r ha => ?_
    obtain ⟨s, hs, hcall, hphase⟩ := ha
    rw [Table.get?_insert] at hs
    split at hs
    · obtain rfl := Option.some.inj hs
      cases hphase
    · exact ⟨s, hs, hcall, hphase⟩
  | tick seconds => exact .inl fun i call r ha => ha
  | turn at_ turn =>
    refine .inl fun i call r ha => ?_
    obtain ⟨s, hs, hcall, hphase⟩ := ha
    rcases get?_grantGoto at_ hs with ⟨rfl, rfl⟩ | ⟨-, hs'⟩
    · exact absurd hphase (turn.silent r)
    · exact ⟨s, hs', hcall, hphase⟩
  | @commit id tx write outcome at_ phase =>
    have hothers : ∀ j call r, Answered (w.goto id (.done outcome)) j call r →
        Answered w j call r ∨ j = id ∧ call = tx.call ∧ outcome = .ok (some r) := by
      intro j call r ha
      obtain ⟨s, hs, hcall, hphase⟩ := ha
      rcases get?_grantGoto at_ hs with ⟨rfl, rfl⟩ | ⟨-, hs'⟩
      · exact .inr ⟨rfl, hcall.symm, GrantPhase.done.inj hphase⟩
      · exact .inl ⟨s, hs', hcall, hphase⟩
    by_cases hr : ∃ r, outcome = .ok (some r)
    · obtain ⟨r, hr⟩ := hr
      obtain ⟨hlive, hanswer⟩ := h.answer at_ phase hr
      refine .inr ⟨hlive, id, tx.call, hanswer, fun j call r ha => ?_⟩
      rcases hothers j call r ha with ha | ⟨hj, hcall, -⟩
      · exact .inl ha
      · exact .inr ⟨hj, hcall⟩
    · refine .inl fun j call r ha => ?_
      rcases hothers j call r ha with ha | ⟨-, -, hout⟩
      · exact ha
      · exact absurd ⟨r, hout⟩ hr

theorem history_grows {ev : GrantEvent} (hm : GrantMove env rowLocks w ev w') :
    w.rotated ⊆ w'.rotated ∧ w.redeemed ≤ w'.redeemed := by
  cases hm with
  | begin | tick | turn => exact ⟨List.Subset.refl _, le_rfl⟩
  | commit => exact ⟨List.subset_append_right _ _, Nat.le_add_right _ _⟩

theorem GrantAnswers.move {ev : GrantEvent} (h : GrantAnswers w) (hinv : GrantInv env w)
    (hm : GrantMove env rowLocks w ev w') : GrantAnswers w' := by
  obtain ⟨hrotated, hredeemed⟩ := history_grows hm
  rcases answered_move hinv hm with hans | ⟨-, i, new, hnew, hans⟩
  · exact h.mono hans hrotated hredeemed
  · exact h.answer hnew hans

/-! ## Runs -/

/-- No scope ranks below `agent:read`. -/
theorem AgentScope.read_rank_le (scope : AgentScope) : AgentScope.read.rank ≤ scope.rank := by
  cases scope <;> decide

theorem scope_move {ev : GrantEvent} (h : GrantInv env w) (hm : GrantMove env rowLocks w ev w') :
    w'.row.scope.rank ≤ w.row.scope.rank := by
  cases hm with
  | begin | tick | turn => exact le_rfl
  | @commit id tx write outcome at_ phase =>
    have hw : GrantKnows env w tx.call (.written write outcome) := phase ▸ h.knows id tx at_
    cases write with
    | redeem | revoke | nothing => exact le_rfl
    | rotate now hash matched createdAt narrowed =>
      obtain ⟨-, -, -, -, hnarrowed, -⟩ := hw
      rcases narrowed with _ | s
      · exact le_rfl
      · exact (hnarrowed s rfl).le
    | downgrade scope =>
      obtain ⟨rfl, -⟩ := hw
      exact AgentScope.read_rank_le _

theorem revoked_move {ev : GrantEvent} (hrevoked : w.row.revokedAt ≠ none) (hm : GrantMove env rowLocks w ev w') :
    w'.row.revokedAt ≠ none := by
  cases hm with
  | begin | tick | turn => exact hrevoked
  | @commit id tx write outcome at_ phase =>
    cases write with
    | redeem | rotate | downgrade | nothing => exact hrevoked
    | revoke now => exact Option.some_ne_none now

/-- What every run keeps. -/
structure GrantSound (env : OAuthEnv) (w : GrantWorld) : Prop where
  inv : GrantInv env w
  answers : GrantAnswers w

theorem GrantSound.step {ev : GrantEvent} (h : GrantSound env w) (hfresh : FreshToken w ev)
    (hstep : grantStep env rowLocks w ev = .ok w') : GrantSound env w' := by
  have hm := grantStep_move hstep
  exact ⟨h.inv.move hfresh hm, h.answers.move h.inv hm⟩

theorem GrantSound.of_run (h : GrantSound env w) {events : List GrantEvent}
    (hfresh : Guarded (grantStep env rowLocks) FreshToken w events) :
    GrantSound env (run (grantStep env rowLocks) w events) :=
  run_invariant_of_guarded (fun _ _ _ h hf hs => h.step hf hs) events hfresh h

/-- The grant just made, its code not yet exchanged. -/
def granted (env : OAuthEnv) (now : Int) (clientId : String) (scope : AgentScope) (code codeChallenge redirectUri : String) :
    GrantWorld :=
  { clock := now, row := createOauthGrant env now clientId scope code codeChallenge redirectUri }

theorem granted_sound (env : OAuthEnv) (now : Int) (clientId : String) {scope : AgentScope} (hscope : scope ∈ oauthScopes)
    (code codeChallenge redirectUri : String) :
    GrantSound env (granted env now clientId scope code codeChallenge redirectUri) where
  inv :=
    { history := ⟨rfl, rfl, rfl, rfl, .nil, (fun e he => by cases he), hscope⟩
      one := fun i j s t hs => by cases hs
      knows := fun i s hs => by cases hs
      snapshots := fun i s hs => by cases hs }
  answers :=
    { exchanged := fun i form r ha => by obtain ⟨s, hs, -⟩ := ha; cases hs
      refreshed := fun i form r ha => by obtain ⟨s, hs, -⟩ := ha; cases hs
      codeOnce := fun i j form form' r r' ha => by obtain ⟨s, hs, -⟩ := ha; cases hs
      tokenOnce := fun i j form form' r r' ha => by obtain ⟨s, hs, -⟩ := ha; cases hs }

/-- The safety of one grant, in a state of its life. -/
structure GrantSafe (env : OAuthEnv) (rowLocks : Bool) (w : GrantWorld) : Prop where
  /-- The code yields tokens once. -/
  codeOnce : ∀ i j form form' r r', Answered w i (.exchange form) r → Answered w j (.exchange form') r' → i = j
  /-- A refresh token is rotated once. -/
  tokenOnce : ∀ i j form form' r r', Answered w i (.refresh form) r → Answered w j (.refresh form') r' →
    form.refreshToken = form'.refreshToken → i = j
  scope : ∀ events, Guarded (grantStep env rowLocks) FreshToken w events →
    (run (grantStep env rowLocks) w events).row.scope.rank ≤ w.row.scope.rank
  expiry : ∀ e, w.row.refreshExpiresAt = some e → e ≤ w.row.createdAt + refreshMax
  /-- Once revoked, nothing returns tokens. -/
  revoked : w.row.revokedAt ≠ none → ∀ events, Guarded (grantStep env rowLocks) FreshToken w events →
    ∀ i call r, Answered (run (grantStep env rowLocks) w events) i call r → Answered w i call r

theorem GrantSound.scope_of_run (h : GrantSound env w) {events : List GrantEvent}
    (hfresh : Guarded (grantStep env rowLocks) FreshToken w events) :
    (run (grantStep env rowLocks) w events).row.scope.rank ≤ w.row.scope.rank := by
  have hkept : GrantSound env (run (grantStep env rowLocks) w events) ∧
      (run (grantStep env rowLocks) w events).row.scope.rank ≤ w.row.scope.rank := by
    refine run_invariant_of_guarded (I := fun v => GrantSound env v ∧ v.row.scope.rank ≤ w.row.scope.rank)
      (fun v ev v' hv hf hs => ⟨hv.1.step hf hs, ?_⟩) events hfresh ⟨h, le_rfl⟩
    exact (scope_move hv.1.inv (grantStep_move hs)).trans hv.2
  exact hkept.2

theorem GrantSound.revoked_of_run (h : GrantSound env w) (hrevoked : w.row.revokedAt ≠ none) {events : List GrantEvent}
    (hfresh : Guarded (grantStep env rowLocks) FreshToken w events) :
    ∀ i call r, Answered (run (grantStep env rowLocks) w events) i call r → Answered w i call r := by
  let kept : GrantWorld → Prop := fun v =>
    GrantSound env v ∧ v.row.revokedAt ≠ none ∧ ∀ i call r, Answered v i call r → Answered w i call r
  have hstep : ∀ v ev v', kept v → FreshToken v ev → grantStep env rowLocks v ev = .ok v' → kept v' := by
    intro v ev v' hv hf hs
    obtain ⟨hsound, hdead, hans⟩ := hv
    have hm := grantStep_move hs
    refine ⟨hsound.step hf hs, revoked_move hdead hm, fun i call r ha => ?_⟩
    rcases answered_move hsound.inv hm with hsame | ⟨hlive, -⟩
    · exact hans i call r (hsame i call r ha)
    · exact absurd hlive hdead
  exact (run_invariant_of_guarded hstep events hfresh ⟨h, hrevoked, fun _ _ _ ha => ha⟩).2.2

/-- **A grant is safe in every state of its life**, whatever exchanges, refreshes, revokes
and downgrades run against it, in whatever order. -/
theorem grant_safe (env : OAuthEnv) (rowLocks : Bool) (now : Int) (clientId : String) (scope : AgentScope)
    (hscope : scope ∈ oauthScopes) (code codeChallenge redirectUri : String) (events : List GrantEvent)
    (hfresh : Guarded (grantStep env rowLocks) FreshToken
      (granted env now clientId scope code codeChallenge redirectUri) events) :
    GrantSafe env rowLocks
      (run (grantStep env rowLocks) (granted env now clientId scope code codeChallenge redirectUri) events) := by
  have hsound := (granted_sound env now clientId hscope code codeChallenge redirectUri).of_run hfresh
  exact
    { codeOnce := hsound.answers.codeOnce
      tokenOnce := hsound.answers.tokenOnce
      scope := fun events hf => hsound.scope_of_run hf
      expiry := hsound.inv.history.expiry
      revoked := fun hrevoked events hf => hsound.revoked_of_run hrevoked hf }

/-- Tokens that are their own digests. -/
def plainEnv : OAuthEnv where
  hashApiToken t := t
  tokenHashCandidates t := [t]
  primary t := List.mem_singleton_self t
  apart _ _ _ ht ht' := (List.mem_singleton.mp ht).symm.trans (List.mem_singleton.mp ht')
  clientRef c := c
  sha256Hex s := s
  s256 s := s
  isVerifier _ := true
  hexOfCimdRow _ := false

/-- The requests of one transaction, each in turn; the ones that do not apply are refused. -/
def presentation (id : Nat) (call : GrantCall) (new : String) : List GrantEvent :=
  [.begin call, .read id, .lock id, .update id new, .lock id, .stamp id, .commit id]

/-- The code is exchanged, the first refresh token rotated, and the grant revoked. -/
theorem grant_safe_revoked : GrantSafe plainEnv true (run (grantStep plainEnv true)
    (granted plainEnv 0 "c" .write "code" "v" "u")
    (presentation 1 (.exchange { code := "code", clientId := "c", redirectUri := "u", codeVerifier := "v" }) "r0" ++
      presentation 2 (.refresh { refreshToken := "r0" }) "r1" ++ presentation 3 .revoke "")) :=
  grant_safe plainEnv true 0 "c" .write (by decide) "code" "v" "u" _ (by decide)

end BetterDecision
