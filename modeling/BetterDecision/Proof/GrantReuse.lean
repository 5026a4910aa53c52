import BetterDecision.Proof.OAuthGrants

/-!
# Reuse of a refresh token, or of a code

The row keeps the hash of the current refresh token and of the one before. A token
rotated out earlier matches neither: presenting it is answered like a token that never
was, and the grant lives on. A request alone on the row is one transaction opened on the
state it finds (`GrantWorld.opened`), and it ends where its reads send it.
-/

namespace BetterDecision

variable {env : OAuthEnv} {rowLocks : Bool} {w : GrantWorld} {call : GrantCall} {phase : GrantPhase}

/-! ## A request alone on the row -/

/-- The transaction of a request, opened on `w`. -/
def GrantWorld.opened (w : GrantWorld) (call : GrantCall) (phase : GrantPhase) : GrantWorld :=
  { w with txs := w.txs.insert { call, snapshot := w.row, phase } }

/-- The request, once it is through. -/
def presented (env : OAuthEnv) (rowLocks : Bool) (w : GrantWorld) (call : GrantCall) (new : String) : GrantWorld :=
  run (grantStep env rowLocks) w (presentation w.txs.next call new)

@[simp] theorem opened_get : (w.opened call phase).txs.get? w.txs.next = some { call, snapshot := w.row, phase } := by
  rw [GrantWorld.opened, Table.get?_insert, if_pos rfl]

@[simp] theorem opened_goto (next : GrantPhase) : (w.opened call phase).goto w.txs.next next = w.opened call next := by
  rw [GrantWorld.goto, GrantWorld.opened, Table.modify_insert_next]
  rfl

theorem opened_held (hfree : ¬ w.Held rowLocks w.txs.next) : ¬ (w.opened call phase).Held rowLocks w.txs.next := by
  intro hheld
  obtain ⟨q, hq, hne, htest⟩ := hheld
  rcases List.mem_append.mp hq with hq | hq
  · exact hfree ⟨q, hq, hne, htest⟩
  · rw [List.mem_singleton.mp hq] at hne
    exact hne rfl

theorem opened_wait (hfree : ¬ w.Held rowLocks w.txs.next) (next : GrantPhase) :
    (w.opened call phase).waitAndGoto rowLocks w.txs.next next = .ok (w.opened call next) := by
  rw [GrantWorld.waitAndGoto, opened_goto]
  exact bind_eq_ok.mpr ⟨(), refuse_eq_ok.mpr (opened_held hfree), rfl⟩

/-- The steps of a request after it has begun. -/
def GrantEvent.of (id : Nat) : GrantEvent → Prop
  | .read i | .lock i | .update i _ | .stamp i | .commit i => i = id
  | .begin _ | .fail _ | .tick _ => False

/-- A request that is through takes no further step. -/
theorem run_done (outcome : GrantOutcome) {events : List GrantEvent} (hevents : ∀ ev ∈ events, ev.of w.txs.next) :
    run (grantStep env rowLocks) (w.opened call (.done outcome)) events = w.opened call (.done outcome) := by
  induction events with
  | nil => rfl
  | cons ev events ih =>
    have hev := hevents ev List.mem_cons_self
    have hstays : serve (grantStep env rowLocks) (w.opened call (.done outcome)) ev = w.opened call (.done outcome) := by
      cases ev with
      | read i | lock i | update i new | stamp i | commit i =>
        obtain rfl := hev
        simp [serve, grantStep, found, bind, Except.bind]
      | begin | fail | tick => cases hev
    rw [run_cons, hstays]
    exact ih fun ev' h => hevents ev' (List.mem_cons_of_mem _ h)

/-- A request that has found a reuse revokes the grant. -/
theorem run_revoking (hfree : ¬ w.Held rowLocks w.txs.next) (hlive : w.row.revokedAt = none) (locked : Bool) :
    (run (grantStep env rowLocks) (w.opened call (.revoking locked)) [.stamp w.txs.next, .commit w.txs.next]).row.revokedAt =
      some w.clock := by
  have hstamp : serve (grantStep env rowLocks) (w.opened call (.revoking locked)) (.stamp w.txs.next) =
      w.opened call (.written (.revoke w.clock) (.error .invalidGrant)) := by
    refine serve_of_ok ?_
    have hrow : (w.opened call (.revoking locked)).row.revokedAt = none := hlive
    simp only [grantStep, opened_get, found, bind, Except.bind, hrow, if_true]
    exact opened_wait hfree _
  rw [run_cons, hstamp]
  simp [run, serve, grantStep, found, bind, Except.bind, GrantWrite.apply]

theorem opened_revokedAt : (w.opened call phase).row.revokedAt = w.row.revokedAt := rfl

/-- A refresh past its read: what is left of it. -/
theorem presented_refresh (form : RefreshForm) (new : String) :
    presented env rowLocks w (.refresh form) new =
      run (grantStep env rowLocks) (w.opened (.refresh form) (readRefresh env w.row form))
        [.lock w.txs.next, .update w.txs.next new, .lock w.txs.next, .stamp w.txs.next, .commit w.txs.next] := by
  have hread : serve (grantStep env rowLocks) (w.opened (.refresh form) .begun) (.read w.txs.next) =
      w.opened (.refresh form) (readRefresh env w.row form) :=
    serve_of_ok (by simp [grantStep, found, bind, Except.bind])
  rw [← hread]
  rfl

/-- A refresh past its read for update. -/
theorem run_locked (hfree : ¬ w.Held rowLocks w.txs.next) (form : RefreshForm) (new : String) :
    run (grantStep env rowLocks) (w.opened (.refresh form) .found)
        [.lock w.txs.next, .update w.txs.next new, .lock w.txs.next, .stamp w.txs.next, .commit w.txs.next] =
      run (grantStep env rowLocks) (w.opened (.refresh form) (lockRefresh env w.row form w.clock))
        [.update w.txs.next new, .lock w.txs.next, .stamp w.txs.next, .commit w.txs.next] := by
  have hlock : serve (grantStep env rowLocks) (w.opened (.refresh form) .found) (.lock w.txs.next) =
      w.opened (.refresh form) (lockRefresh env w.row form w.clock) := by
    refine serve_of_ok ?_
    simp only [grantStep, opened_get, found, bind, Except.bind]
    exact opened_wait hfree _
  rw [run_cons, hlock]

/-- A reuse found, the refresh goes on to the revoke. -/
theorem run_reused (hfree : ¬ w.Held rowLocks w.txs.next) (hlive : w.row.revokedAt = none) (form : RefreshForm)
    (new : String) :
    (run (grantStep env rowLocks) (w.opened (.refresh form) (.revoking true))
      [.update w.txs.next new, .lock w.txs.next, .stamp w.txs.next, .commit w.txs.next]).row.revokedAt = some w.clock := by
  have hupdate : serve (grantStep env rowLocks) (w.opened (.refresh form) (.revoking true)) (.update w.txs.next new) =
      w.opened (.refresh form) (.revoking true) := by
    simp [serve, grantStep, found, bind, Except.bind]
  have hlock : serve (grantStep env rowLocks) (w.opened (.refresh form) (.revoking true)) (.lock w.txs.next) =
      w.opened (.refresh form) (.revoking true) := by
    simp [serve, grantStep, found, bind, Except.bind]
  rw [run_cons, hupdate, run_cons, hlock]
  exact run_revoking hfree hlive true

/-- Alone, a refresh whose token matched rotates it. -/
theorem run_matched (hfree : ¬ w.Held rowLocks w.txs.next) (hlive : w.row.revokedAt = none) (form : RefreshForm)
    (new : String) {hash : String} (hcurrent : w.row.refreshHash = some hash) :
    (run (grantStep env rowLocks)
      (w.opened (.refresh form) (.matched hash w.clock w.row.scope w.row.createdAt))
      [.update w.txs.next new, .lock w.txs.next, .stamp w.txs.next, .commit w.txs.next]).row.revokedAt = none := by
  -- nothing has moved since the read for update, so the guards of the update hold
  obtain ⟨write, response, hwritten, hrow⟩ : ∃ write response,
      updateRefresh env w.row form hash w.clock w.row.scope w.row.createdAt new = .written write (.ok (some response)) ∧
        (write.apply w.row).revokedAt = w.row.revokedAt := by
    rw [updateRefresh, if_pos ⟨hcurrent, hlive, rfl⟩]
    exact ⟨_, _, rfl, rfl⟩
  have hupdate : serve (grantStep env rowLocks)
      (w.opened (.refresh form) (.matched hash w.clock w.row.scope w.row.createdAt)) (.update w.txs.next new) =
        w.opened (.refresh form) (.written write (.ok (some response))) := by
    refine serve_of_ok ?_
    simp only [grantStep, opened_get, found, bind, Except.bind]
    rw [← hwritten]
    exact opened_wait hfree _
  have hlock : serve (grantStep env rowLocks) (w.opened (.refresh form) (.written write (.ok (some response))))
      (.lock w.txs.next) = w.opened (.refresh form) (.written write (.ok (some response))) := by
    simp [serve, grantStep, found, bind, Except.bind]
  have hstamp : serve (grantStep env rowLocks) (w.opened (.refresh form) (.written write (.ok (some response))))
      (.stamp w.txs.next) = w.opened (.refresh form) (.written write (.ok (some response))) := by
    simp [serve, grantStep, found, bind, Except.bind]
  rw [run_cons, hupdate, run_cons, hlock, run_cons, hstamp, ← hlive, ← hrow]
  have hcommit : serve (grantStep env rowLocks) (w.opened (.refresh form) (.written write (.ok (some response))))
      (.commit w.txs.next) = _ := serve_of_ok (by simp [grantStep, found, bind, Except.bind]; rfl)
  rw [run_cons, hcommit, run_nil]
  rfl

/-- The token is not the current one, and is the one before. -/
def seenReused (env : OAuthEnv) (row : ApiToken) (token : String) : Bool :=
  !isCandidate env row.refreshHash token && isCandidate env row.refreshPrevHash token

theorem filter_eq_none {hash : Option String} {token : String} :
    hash.filter (fun h => decide (h ∈ env.tokenHashCandidates token)) = none ↔ isCandidate env hash token = false := by
  cases hash <;> simp [isCandidate, Option.filter]

/-- The current token is refused or rotated. -/
theorem lockRefresh_current {row : ApiToken} {form : RefreshForm} (now : Int)
    (hcurrent : isCandidate env row.refreshHash form.refreshToken = true) :
    (∃ outcome, lockRefresh env row form now = .done outcome) ∨
      ∃ hash, row.refreshHash = some hash ∧ lockRefresh env row form now = .matched hash now row.scope row.createdAt := by
  rcases hfilter : row.refreshHash.filter (fun h => decide (h ∈ env.tokenHashCandidates form.refreshToken)) with _ | hash
  · rw [filter_eq_none, hcurrent] at hfilter
    cases hfilter
  · obtain ⟨hhash, -⟩ := Option.filter_eq_some_iff.mp hfilter
    rw [lockRefresh, hfilter]
    dsimp only
    repeat' split
    · exact .inl ⟨_, rfl⟩
    · exact .inl ⟨_, rfl⟩
    · exact .inl ⟨_, rfl⟩
    · exact .inr ⟨hash, hhash, rfl⟩

/-- A token that is not the current one is reused, or unknown. -/
theorem lockRefresh_other {row : ApiToken} {form : RefreshForm} (now : Int)
    (hother : isCandidate env row.refreshHash form.refreshToken = false) :
    lockRefresh env row form now =
      if isCandidate env row.refreshPrevHash form.refreshToken then .revoking true else .done (.error .invalidGrant) := by
  rw [lockRefresh, filter_eq_none.mpr hother]

/-- **A refresh alone on a live row revokes it when the row's previous hash, and not its
current one, is the token's.** -/
theorem presented_refresh_revokes (hfree : ¬ w.Held rowLocks w.txs.next) (hlive : w.row.revokedAt = none)
    (form : RefreshForm) (new : String) :
    (presented env rowLocks w (.refresh form) new).row.revokedAt ≠ none ↔
      form.admitted = true ∧ (∃ asked, parseScope form.scope = .ok asked) ∧
        seenReused env w.row form.refreshToken = true := by
  have done : ∀ outcome, (run (grantStep env rowLocks) (w.opened (.refresh form) (.done outcome))
      [.lock w.txs.next, .update w.txs.next new, .lock w.txs.next, .stamp w.txs.next, .commit w.txs.next]).row.revokedAt =
        none := fun outcome => by
    rw [run_done outcome (by simp [GrantEvent.of])]
    exact hlive
  rw [presented_refresh, readRefresh]
  by_cases hadmitted : form.admitted = true
  · rw [if_neg (by simp [hadmitted])]
    rcases hasked : parseScope form.scope with e | asked
    · simp [done]
    · dsimp only
      split
      · rename_i hfound
        rw [run_locked hfree]
        by_cases hcurrent : isCandidate env w.row.refreshHash form.refreshToken = true
        · have hstays : (run (grantStep env rowLocks) (w.opened (.refresh form) (lockRefresh env w.row form w.clock))
              [.update w.txs.next new, .lock w.txs.next, .stamp w.txs.next, .commit w.txs.next]).row.revokedAt = none := by
            rcases lockRefresh_current w.clock hcurrent with ⟨outcome, hdone⟩ | ⟨hash, hhash, hmatched⟩
            · rw [hdone, run_done outcome (by simp [GrantEvent.of])]
              exact hlive
            · rw [hmatched]
              exact run_matched hfree hlive form new hhash
          simp [hstays, seenReused, hcurrent]
        · have hother : isCandidate env w.row.refreshHash form.refreshToken = false := by simpa using hcurrent
          rw [hother, Bool.false_or] at hfound
          rw [lockRefresh_other _ hother, if_pos hfound, run_reused hfree hlive]
          simp [hadmitted, seenReused, hother, hfound]
      · rename_i hmiss
        simp only [Bool.or_eq_true, not_or] at hmiss
        simp [done, seenReused, hmiss]
  · rw [if_pos (by simpa using hadmitted)]
    simp [done, hadmitted]

/-- **A redeemed code presented with its client, redirect and verifier revokes the grant**,
if the request is admitted at all. -/
theorem presented_code_revokes (hfree : ¬ w.Held rowLocks w.txs.next) (hlive : w.row.revokedAt = none)
    (form : ExchangeForm) (new : String) (hcode : w.row.codeHash = some (env.hashApiToken form.code))
    (hright : rightForm env w.row form = true) (hredeemed : w.row.refreshHash.isSome = true) :
    (presented env rowLocks w (.exchange form) new).row.revokedAt ≠ none ↔ form.admitted = true := by
  have hread : serve (grantStep env rowLocks) (w.opened (.exchange form) .begun) (.read w.txs.next) =
      w.opened (.exchange form) (readExchange env w.row form) :=
    serve_of_ok (by simp [grantStep, found, bind, Except.bind])
  have hrest : presented env rowLocks w (.exchange form) new =
      run (grantStep env rowLocks) (w.opened (.exchange form) (readExchange env w.row form))
        [.lock w.txs.next, .update w.txs.next new, .lock w.txs.next, .stamp w.txs.next, .commit w.txs.next] := by
    rw [← hread]
    rfl
  rw [hrest]
  by_cases hadmitted : form.admitted = true
  · have hreuse : readExchange env w.row form = .revoking false := by
      simp [readExchange, hadmitted, hcode, hright, hredeemed]
    have hlock : serve (grantStep env rowLocks) (w.opened (.exchange form) (.revoking false)) (.lock w.txs.next) =
        w.opened (.exchange form) (.revoking false) := by
      simp [serve, grantStep, found, bind, Except.bind]
    have hupdate : serve (grantStep env rowLocks) (w.opened (.exchange form) (.revoking false))
        (.update w.txs.next new) = w.opened (.exchange form) (.revoking false) := by
      simp [serve, grantStep, found, bind, Except.bind]
    rw [hreuse, run_cons, hlock, run_cons, hupdate, run_cons, hlock, run_revoking hfree hlive]
    simp [hadmitted]
  · have hdone : readExchange env w.row form = .done (.error .notAdmitted) := by
      simp [readExchange, hadmitted]
    rw [hdone, run_done _ (by simp [GrantEvent.of]), opened_revokedAt, hlive]
    simp [hadmitted]

/-! ## Over the history of the grant -/

theorem isCandidate_head {token : String} {tokens : List String} :
    isCandidate env (tokens.head?.map env.hashApiToken) token = true ↔ tokens.head? = some token := by
  rcases tokens with _ | ⟨t, ts⟩
  · simp [isCandidate]
  · simp only [isCandidate, List.head?_cons, Option.map_some, Option.any_some, decide_eq_true_eq, Option.some.injEq]
    constructor
    · intro h
      exact env.apart t token _ (env.primary t) h
    · intro h
      rw [← h]
      exact env.primary t

/-- Reuse is seen of the token rotated out last, and of no other. -/
theorem GrantHistory.seenReused_iff (h : GrantHistory env w) {token : String} :
    seenReused env w.row token = true ↔ w.rotated.head? = some token := by
  rw [seenReused, h.current, h.previous, ← h.rotated, Bool.and_eq_true, isCandidate_head, Bool.not_eq_true',
    Bool.eq_false_iff, Ne, isCandidate_head]
  refine ⟨fun hseen => hseen.2, fun hlast => ⟨fun hcurrent => ?_, hlast⟩⟩
  -- the tokens handed out are distinct, so the last one is not among those rotated
  have hfresh := h.fresh
  rcases hissued : w.issued with _ | ⟨t, ts⟩
  · rw [hissued] at hcurrent
    cases hcurrent
  · rw [hissued] at hcurrent hfresh
    obtain rfl : t = token := Option.some.inj hcurrent
    rw [h.rotated, hissued] at hlast
    exact (List.nodup_cons.mp hfresh).1 (List.mem_of_mem_head? hlast)

/-- A state in the life of a grant. -/
def GrantReached (env : OAuthEnv) (rowLocks : Bool) (w : GrantWorld) : Prop :=
  ∃ now clientId scope code codeChallenge redirectUri events, scope ∈ oauthScopes ∧
    Guarded (grantStep env rowLocks) FreshToken (granted env now clientId scope code codeChallenge redirectUri) events ∧
    w = run (grantStep env rowLocks) (granted env now clientId scope code codeChallenge redirectUri) events

theorem GrantReached.sound (h : GrantReached env rowLocks w) : GrantSound env w := by
  obtain ⟨now, clientId, scope, code, codeChallenge, redirectUri, events, hscope, hfresh, rfl⟩ := h
  exact (granted_sound env now clientId hscope code codeChallenge redirectUri).of_run hfresh

/-- What presenting an old token, the code, or the current token does to a live grant. -/
structure ReuseDetected (env : OAuthEnv) (rowLocks : Bool) (w : GrantWorld) : Prop where
  /-- A token rotated out revokes if it is the one rotated out last. -/
  token : ∀ form new, form.refreshToken ∈ w.rotated →
    ((presented env rowLocks w (.refresh form) new).row.revokedAt ≠ none ↔
      form.admitted = true ∧ (∃ asked, parseScope form.scope = .ok asked) ∧
        w.rotated.head? = some form.refreshToken)
  code : ∀ form new, w.redeemed ≠ 0 → w.row.codeHash = some (env.hashApiToken form.code) →
    rightForm env w.row form = true →
    ((presented env rowLocks w (.exchange form) new).row.revokedAt ≠ none ↔ form.admitted = true)
  current : ∀ form new, w.issued.head? = some form.refreshToken →
    (presented env rowLocks w (.refresh form) new).row.revokedAt = none

/-- **Which reuse is detected**, in every live state of a grant's life, for a request alone
on the row. -/
theorem reuse_detected (env : OAuthEnv) (rowLocks : Bool) (w : GrantWorld) (hreached : GrantReached env rowLocks w)
    (hlive : w.row.revokedAt = none) (hfree : ¬ w.Held rowLocks w.txs.next) : ReuseDetected env rowLocks w := by
  have hhistory := hreached.sound.inv.history
  refine ⟨fun form new _ => ?_, fun form new hredeemed hcode hright => ?_, fun form new hcurrent => ?_⟩
  · rw [presented_refresh_revokes hfree hlive form new, hhistory.seenReused_iff]
  · have hissued : w.row.refreshHash.isSome = true := by
      rcases hhash : w.row.refreshHash with _ | hash
      · rw [hhistory.redeemed, hhistory.unused hhash] at hredeemed
        exact absurd rfl hredeemed
      · rfl
    exact presented_code_revokes hfree hlive form new hcode hright hissued
  · by_contra hrevoked
    obtain ⟨-, -, hseen⟩ := (presented_refresh_revokes hfree hlive form new).mp hrevoked
    rw [seenReused, hhistory.current, isCandidate_head.mpr hcurrent] at hseen
    cases hseen

/-- The code exchanged, and two refresh tokens rotated out. -/
def twiceRotated : List GrantEvent :=
  presentation 1 (.exchange { code := "code", clientId := "c", redirectUri := "u", codeVerifier := "v" }) "r0" ++
    presentation 2 (.refresh { refreshToken := "r0" }) "r1" ++ presentation 3 (.refresh { refreshToken := "r1" }) "r2"

theorem reuse_detected_last : ReuseDetected plainEnv true
    (run (grantStep plainEnv true) (granted plainEnv 0 "c" .write "code" "v" "u") twiceRotated) :=
  reuse_detected plainEnv true _ ⟨0, "c", .write, "code", "v", "u", twiceRotated, by decide, by decide, rfl⟩ (by decide)
    (by decide)

/-- The first of two tokens rotated out is presented again, and the grant lives on. -/
theorem reuse_missed :
    ∃ w, w = run (grantStep plainEnv true) (granted plainEnv 0 "c" .write "code" "v" "u") twiceRotated ∧
      "r0" ∈ w.rotated ∧ w.row.revokedAt = none ∧
        (presented plainEnv true w (.refresh { refreshToken := "r0" }) "r3").row.revokedAt = none :=
  ⟨_, rfl, by decide, by decide, by decide⟩

end BetterDecision
