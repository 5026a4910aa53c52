import BetterDecision.Model.SecondFactor
import BetterDecision.Proof.LeasesAndClaims

/-!
# A one-time code is accepted once

A step's row is written no earlier than a step before it began, and lasts four steps; a request
that matched it claims it within three steps of that. So a step once claimed is never won again,
though its row runs out and is purged.

Who accepted a step has the two before it claimed as well, and no older one matches any more.
-/

namespace BetterDecision

variable {hash : String → String} {otp : Int → String} {userId : Nat}

/-- The start of a step. -/
def stepStart (step : Int) : Int := totpStepMicros * step

theorem matchTotpStep_bounds {code : String} {now step : Int} (h : matchTotpStep otp code now = some step) :
    stepStart (step - 1) ≤ now ∧ now < stepStart (step + 2) ∧ timecode now - 1 ≤ step := by
  have hmem := (List.mem_filter.mp (List.mem_of_getLast? h)).1
  have hdiv := Int.mul_ediv_add_emod now totpStepMicros
  have hpos : (0 : Int) < totpStepMicros := by decide
  have hlow := Int.emod_nonneg now hpos.ne'
  have hhigh := Int.emod_lt_of_pos now hpos
  unfold stepStart timecode at *
  unfold totpStepMicros at *
  simp only [List.mem_cons, List.not_mem_nil, or_false] at hmem
  omega

/-- Somebody won a claim of the step. -/
def SpentStep (hash : String → String) (userId : Nat) (log : List ClaimRecord) (step : Int) : Prop :=
  ∃ c ∈ log, c.key = totpKey hash userId step ∧ c.won = true

/-- The claims of steps last four steps, from no earlier than a step before their own. -/
def StepsDated (hash : String → String) (userId : Nat) (log : List ClaimRecord) : Prop :=
  ∀ c ∈ log, ∀ step, c.key = totpKey hash userId step → c.ttl = totpStepClaimTtlSeconds ∧ stepStart (step - 1) ≤ c.madeAt

/-- What holds of a request in each of its phases. -/
def PhaseKept (hash : String → String) (userId : Nat) (claims : ClaimWorld) : TotpPhase → Prop
  | .matched step on => stepStart (step - 1) ≤ on ∧ on < stepStart (step + 2) ∧ on ≤ claims.clock
  | .claimed step => stepStart (step - 1) ≤ claims.clock ∧ SpentStep hash userId claims.log step
  | .retired step => stepStart (step - 1) ≤ claims.clock ∧ SpentStep hash userId claims.log step ∧
      SpentStep hash userId claims.log (step - 1)
  | .accepted step => stepStart (step - 1) ≤ claims.clock ∧ SpentStep hash userId claims.log step ∧
      SpentStep hash userId claims.log (step - 1) ∧ SpentStep hash userId claims.log (step - 2)
  | .refused => True

/-- The step a request won. -/
def TotpPhase.won : TotpPhase → Option Int
  | .claimed step | .retired step | .accepted step => some step
  | _ => none

structure TotpKept (hash : String → String) (userId : Nat) (w : TotpWorld) : Prop where
  claims : ClaimInv w.claims
  dated : StepsDated hash userId w.claims.log
  phases : ∀ i phase, w.calls.get? i = some phase → PhaseKept hash userId w.claims phase
  once : ∀ i j phase phase' step, w.calls.get? i = some phase → w.calls.get? j = some phase' →
    phase.won = some step → phase'.won = some step → i = j

theorem SpentStep.append {log more : List ClaimRecord} {step : Int} (h : SpentStep hash userId log step) :
    SpentStep hash userId (log ++ more) step := by
  obtain ⟨c, hc, hrest⟩ := h
  exact ⟨c, List.mem_append_left _ hc, hrest⟩

/-- Time passes, and claims are added. -/
structure ClaimsGrow (claims claims' : ClaimWorld) : Prop where
  clock : claims.clock ≤ claims'.clock
  log : ∃ more, claims'.log = claims.log ++ more

theorem ClaimsGrow.refl (claims : ClaimWorld) : ClaimsGrow claims claims := ⟨Int.le_refl _, [], (List.append_nil _).symm⟩

theorem ClaimsGrow.spent {claims claims' : ClaimWorld} (h : ClaimsGrow claims claims') {step : Int}
    (hspent : SpentStep hash userId claims.log step) : SpentStep hash userId claims'.log step := by
  obtain ⟨more, hlog⟩ := h.log
  rw [hlog]
  exact hspent.append

theorem PhaseKept.grow {claims claims' : ClaimWorld} {phase : TotpPhase} (h : PhaseKept hash userId claims phase)
    (hgrow : ClaimsGrow claims claims') : PhaseKept hash userId claims' phase := by
  have hclock := hgrow.clock
  cases phase with
  | matched step on => exact ⟨h.1, h.2.1, Int.le_trans h.2.2 hclock⟩
  | claimed step => exact ⟨Int.le_trans h.1 hclock, hgrow.spent h.2⟩
  | retired step => exact ⟨Int.le_trans h.1 hclock, hgrow.spent h.2.1, hgrow.spent h.2.2⟩
  | accepted step => exact ⟨Int.le_trans h.1 hclock, hgrow.spent h.2.1, hgrow.spent h.2.2.1, hgrow.spent h.2.2.2⟩
  | refused => trivial

theorem claimToken_grow (claims : ClaimWorld) (key : String × String) (ttl : Int) :
    (claimToken claims key ttl).clock = claims.clock ∧ ∃ won, (claimToken claims key ttl).log =
      claims.log ++ [{ key, madeAt := claims.clock, ttl, won }] := by
  unfold claimToken
  dsimp only
  split
  · exact ⟨rfl, false, rfl⟩
  · exact ⟨rfl, true, rfl⟩

theorem claimToken_wins {claims : ClaimWorld} {key : String × String} (ttl : Int) (h : claimIsFree claims key) :
    (claimToken claims key ttl).log = claims.log ++ [{ key, madeAt := claims.clock, ttl, won := true }] := by
  unfold claimToken
  dsimp only
  unfold claimIsFree at h
  rw [h]

/-- A step that is claimed is spent, whoever won it. -/
theorem spent_of_claim {claims : ClaimWorld} (h : ClaimInv claims) (step : Int) (ttl : Int) :
    SpentStep hash userId (claimToken claims (totpKey hash userId step) ttl).log step := by
  unfold claimToken
  dsimp only
  split
  · rename_i expiresAt hkept
    obtain ⟨hrow, -⟩ := Option.filter_eq_some_iff.mp hkept
    obtain ⟨c, hc, hkey, hwon, -⟩ := h.used _ expiresAt hrow
    exact ⟨c, List.mem_append_left _ hc, hkey, hwon⟩
  · exact ⟨_, List.mem_append_right _ List.mem_cons_self, rfl, rfl⟩

/-- **A spent step is not won again** by a request that matched it in time. -/
theorem not_free_of_spent {claims : ClaimWorld} (h : ClaimInv claims) (hdated : StepsDated hash userId claims.log)
    {step on : Int} (hspent : SpentStep hash userId claims.log step) (hon : on < stepStart (step + 2))
    (hintime : claims.clock < on + totpStepMicros) : ¬ claimIsFree claims (totpKey hash userId step) := by
  intro hfree
  obtain ⟨c, hc, hkey, hwon⟩ := hspent
  obtain ⟨httl, hmade⟩ := hdated c hc step hkey
  -- the row was made no earlier than a step before its own, and lasts to the end of the second after it
  have hlive : claims.clock < c.expiresAt := by
    unfold ClaimRecord.expiresAt dbNow
    rw [httl]
    unfold totpStepClaimTtlSeconds
    unfold stepStart at hon hmade
    unfold totpStepMicros at hon hmade hintime
    omega
  obtain ⟨expiresAt, hrow, hlasts⟩ := h.recorded _ claims.clock (Int.le_refl _) ⟨c, hc, hkey, hwon, hlive⟩
  have hkept : (some expiresAt).filter (claims.clock < ·) = some expiresAt := Option.filter_some_pos (decide_eq_true hlasts)
  unfold claimIsFree at hfree
  rw [hrow, hkept] at hfree
  cases hfree

theorem StepsDated.claim {claims : ClaimWorld} (h : StepsDated hash userId claims.log)
    (hinj : ∀ a b, totpKey hash userId a = totpKey hash userId b → a = b) {step : Int}
    (hclock : stepStart (step - 1) ≤ claims.clock) :
    StepsDated hash userId (claimToken claims (totpKey hash userId step) totpStepClaimTtlSeconds).log := by
  obtain ⟨-, won, hlog⟩ := claimToken_grow claims (totpKey hash userId step) totpStepClaimTtlSeconds
  rw [hlog]
  intro c hc k hkey
  rcases List.mem_append.mp hc with hc | hc
  · exact h c hc k hkey
  · obtain rfl := List.mem_singleton.mp hc
    obtain rfl := hinj step k hkey
    exact ⟨rfl, hclock⟩

theorem totpKept_start : TotpKept hash userId {} where
  claims := claimInv_init
  dated := fun c hc => absurd hc List.not_mem_nil
  phases := fun i phase hi => by rw [Table.get?_empty] at hi; cases hi
  once := fun i j phase phase' step hi => by rw [Table.get?_empty] at hi; cases hi

/-- A request that moved on, and the others. -/
theorem TotpWorld.goto_get? {w : TotpWorld} {id : Nat} {old phase p : TotpPhase} (hold : w.calls.get? id = some old)
    {i : Nat} (hi : (w.goto id phase).calls.get? i = some p) : (i = id ∧ p = phase) ∨ w.calls.get? i = some p := by
  have hi : (w.calls.modify id (fun _ => phase)).get? i = some p := hi
  by_cases hid : i = id
  · subst hid
    rw [Table.get?_modify_self hold] at hi
    exact .inl ⟨rfl, (Option.some.inj hi).symm⟩
  · rw [Table.get?_modify_of_ne hid] at hi
    exact .inr hi

/-- A request moves on to a phase that holds; a step is won by nobody who had it. -/
theorem TotpKept.goto {w : TotpWorld} (h : TotpKept hash userId w) {claims : ClaimWorld} (hclaims : ClaimInv claims)
    (hdated : StepsDated hash userId claims.log) (hgrow : ClaimsGrow w.claims claims) {id : Nat} {old phase : TotpPhase}
    (hold : w.calls.get? id = some old) (hphase : PhaseKept hash userId claims phase)
    (hwon : ∀ step, phase.won = some step → old.won = some step ∨
      ∀ i p, w.calls.get? i = some p → p.won ≠ some step) :
    TotpKept hash userId { (w.goto id phase) with claims } := by
  refine ⟨hclaims, hdated, ?_, ?_⟩
  · intro i p hi
    -- the others keep their phases while the claims grow
    rcases TotpWorld.goto_get? hold hi with ⟨rfl, rfl⟩ | hi
    · exact hphase
    · exact (h.phases i p hi).grow hgrow
  · intro i j p p' step hi hj hp hp'
    rcases TotpWorld.goto_get? hold hi with ⟨rfl, rfl⟩ | hi₀
    · rcases TotpWorld.goto_get? hold hj with ⟨rfl, rfl⟩ | hj₀
      · rfl
      · rcases hwon step hp with hbefore | hnobody
        · exact h.once i j old p' step hold hj₀ hbefore hp'
        · exact absurd hp' (hnobody j p' hj₀)
    · rcases TotpWorld.goto_get? hold hj with ⟨rfl, rfl⟩ | hj₀
      · rcases hwon step hp' with hbefore | hnobody
        · exact h.once i j p old step hi₀ hold hp hbefore
        · exact absurd hp (hnobody i p hi₀)
      · exact h.once i j p p' step hi₀ hj₀ hp hp'

theorem TotpKept.insert {w : TotpWorld} (h : TotpKept hash userId w) {phase : TotpPhase}
    (hphase : PhaseKept hash userId w.claims phase) (hwon : phase.won = none) :
    TotpKept hash userId { w with calls := w.calls.insert phase } := by
  refine ⟨h.claims, h.dated, ?_, ?_⟩
  · intro i p hi
    rcases Table.get?_insert_cases hi with ⟨-, rfl⟩ | ⟨-, hi⟩
    · exact hphase
    · exact h.phases i p hi
  · intro i j p p' step hi hj hp hp'
    rcases Table.get?_insert_cases hi with ⟨-, rfl⟩ | ⟨-, hi⟩
    · rw [hwon] at hp
      cases hp
    · rcases Table.get?_insert_cases hj with ⟨-, rfl⟩ | ⟨-, hj⟩
      · rw [hwon] at hp'
        cases hp'
      · exact h.once i j p p' step hi hj hp hp'

theorem claimsGrow_claim (claims : ClaimWorld) (key : String × String) (ttl : Int) :
    ClaimsGrow claims (claimToken claims key ttl) := by
  obtain ⟨hclock, won, hlog⟩ := claimToken_grow claims key ttl
  exact ⟨Int.le_of_eq hclock.symm, _, hlog⟩

/-- A claim of somebody else, the clock or the purge. -/
theorem claimStep_other {claims claims' : ClaimWorld} {event : ClaimEvent} (hother : event.IsOther hash userId)
    (hdated : StepsDated hash userId claims.log) (h : claimStep hash claims event = .ok claims') :
    ClaimsGrow claims claims' ∧ StepsDated hash userId claims'.log := by
  cases event with
  | tick later =>
    obtain ⟨_, hlater, h⟩ := bind_eq_ok.mp h
    obtain rfl := Except.ok.inj h
    exact ⟨⟨Int.not_lt.mp (refuse_eq_ok.mp hlater), [], (List.append_nil _).symm⟩, hdated⟩
  | claim scope token ttl =>
    obtain rfl := Except.ok.inj h
    refine ⟨claimsGrow_claim _ _ _, ?_⟩
    obtain ⟨-, won, hlog⟩ := claimToken_grow claims (scope, hash token) ttl
    rw [hlog]
    intro c hc step hkey
    rcases List.mem_append.mp hc with hc | hc
    · exact hdated c hc step hkey
    · obtain rfl := List.mem_singleton.mp hc
      exact absurd hkey (hother step)
  | purge stale =>
    obtain ⟨-, -, h⟩ := bind_eq_ok.mp h
    obtain rfl := Except.ok.inj h
    exact ⟨⟨Int.le_refl _, [], (List.append_nil _).symm⟩, hdated⟩

/-- The events of a run that are not this user's requests are other people's. -/
def TotpEvent.IsApart (hash : String → String) (userId : Nat) : TotpEvent → Prop
  | .other event => event.IsOther hash userId
  | _ => True

theorem claimPhase {w : TotpWorld} (h : TotpKept hash userId w)
    (hinj : ∀ a b, totpKey hash userId a = totpKey hash userId b → a = b) {id : Nat} {old phase : TotpPhase} {step : Int}
    (hold : w.calls.get? id = some old) (hclock : stepStart (step - 1) ≤ w.claims.clock)
    (hphase : PhaseKept hash userId (claimToken w.claims (totpKey hash userId step) totpStepClaimTtlSeconds) phase)
    (hwon : ∀ k, phase.won = some k → old.won = some k ∨ ∀ i p, w.calls.get? i = some p → p.won ≠ some k) :
    TotpKept hash userId (w.claimed (totpKey hash userId step) id phase) :=
  h.goto (h.claims.claim _ _) (h.dated.claim hinj hclock) (claimsGrow_claim _ _ _) hold hphase hwon

/-- A step somebody won is spent. -/
theorem PhaseKept.spent {claims : ClaimWorld} {phase : TotpPhase} (h : PhaseKept hash userId claims phase) {step : Int}
    (hwon : phase.won = some step) : SpentStep hash userId claims.log step := by
  cases phase with
  | matched k on => cases hwon
  | refused => cases hwon
  | claimed k => obtain rfl := Option.some.inj hwon; exact h.2
  | retired k => obtain rfl := Option.some.inj hwon; exact h.2.1
  | accepted k => obtain rfl := Option.some.inj hwon; exact h.2.1

/-- What an event leaves of the requests: one may move on, or be new. -/
structure TotpMove (hash : String → String) (userId : Nat) (w w' : TotpWorld) : Prop where
  kept : TotpKept hash userId w'
  grow : ClaimsGrow w.claims w'.claims
  ids : w.calls.next ≤ w'.calls.next
  /-- A request that was there keeps the step it matched; a new one matched a step of now. -/
  moved : ∀ i phase', w'.calls.get? i = some phase' → ∀ step, phase'.won = some step →
    (∃ phase, w.calls.get? i = some phase ∧ phase.won = some step) ∨
      ∃ on, w.calls.get? i = some (.matched step on) ∧ ¬ SpentStep hash userId w.claims.log step
  matched : ∀ i step on, w'.calls.get? i = some (.matched step on) →
    w.calls.get? i = some (.matched step on) ∨ (on = w'.claims.clock ∧ timecode on - 1 ≤ step)

/-- A claim of a step, as a move. -/
theorem claimMove {w : TotpWorld} {key : String × String} {id : Nat} {old phase : TotpPhase}
    (hold : w.calls.get? id = some old) (hkept : TotpKept hash userId (w.claimed key id phase))
    (hwon : ∀ step, phase.won = some step → old.won = some step ∨
      ∃ on, old = .matched step on ∧ ¬ SpentStep hash userId w.claims.log step)
    (hmatched : ∀ step on, phase ≠ .matched step on) : TotpMove hash userId w (w.claimed key id phase) := by
  refine ⟨hkept, claimsGrow_claim _ _ _, Nat.le_refl _, ?_, ?_⟩
  · intro i p hi step hp
    rcases TotpWorld.goto_get? hold hi with ⟨rfl, rfl⟩ | hi₀
    · rcases hwon step hp with hbefore | ⟨on, rfl, hfresh⟩
      · exact .inl ⟨old, hold, hbefore⟩
      · exact .inr ⟨on, hold, hfresh⟩
    · exact .inl ⟨p, hi₀, hp⟩
  · intro i step on hi
    rcases TotpWorld.goto_get? hold hi with ⟨-, hphase⟩ | hi₀
    · exact absurd hphase.symm (hmatched step on)
    · exact .inl hi₀

/-- **Every event keeps the steps spent once.** -/
theorem totpMove_of_step {w w' : TotpWorld} {event : TotpEvent}
    (hinj : ∀ a b, totpKey hash userId a = totpKey hash userId b → a = b) (h : TotpKept hash userId w)
    (hapart : event.IsApart hash userId) (hstep : totpStep hash otp userId w event = .ok w') :
    TotpMove hash userId w w' := by
  cases event with
  | verify code =>
    have hnew : ∀ phase : TotpPhase, phase.won = none → PhaseKept hash userId w.claims phase →
        (∀ step on, phase = .matched step on → on = w.claims.clock ∧ timecode on - 1 ≤ step) →
        TotpMove hash userId w { w with calls := w.calls.insert phase } := by
      intro phase hwon hphase hmatched
      refine ⟨h.insert hphase hwon, .refl _, Nat.le_succ _, ?_, ?_⟩
      · intro i p hi step hp
        rcases Table.get?_insert_cases hi with ⟨-, rfl⟩ | ⟨-, hi⟩
        · rw [hwon] at hp
          cases hp
        · exact .inl ⟨p, hi, hp⟩
      · intro i step on hi
        rcases Table.get?_insert_cases hi with ⟨-, hnow⟩ | ⟨-, hi⟩
        · exact .inr (hmatched step on hnow.symm)
        · exact .inl hi
    simp only [totpStep] at hstep
    split at hstep
    · obtain rfl := Except.ok.inj hstep
      exact hnew .refused rfl trivial fun _ _ => TotpPhase.noConfusion
    · rename_i step hmatch
      obtain rfl := Except.ok.inj hstep
      obtain ⟨hlow, hhigh, hwindow⟩ := matchTotpStep_bounds hmatch
      refine hnew (.matched step w.claims.clock) rfl ⟨hlow, hhigh, Int.le_refl _⟩ ?_
      intro k on hphase
      obtain ⟨rfl, rfl⟩ := TotpPhase.matched.inj hphase
      exact ⟨rfl, hwindow⟩
  | claim id =>
    obtain ⟨old, hold, hstep⟩ := bind_eq_ok.mp hstep
    have hold := found_eq_ok.mp hold
    have hphase := h.phases id old hold
    cases old with
    | matched step on =>
      obtain ⟨_, hintime, hstep⟩ := bind_eq_ok.mp hstep
      have hintime := Int.not_le.mp (refuse_eq_ok.mp hintime)
      have hclock : stepStart (step - 1) ≤ w.claims.clock := Int.le_trans hphase.1 hphase.2.2
      split at hstep
      · -- the step is won: nobody had it, for it would still be recorded
        rename_i hfree
        obtain rfl := Except.ok.inj hstep
        have hfresh : ¬ SpentStep hash userId w.claims.log step := fun hspent =>
          not_free_of_spent h.claims h.dated hspent hphase.2.1 hintime hfree
        have hnobody : ∀ i p, w.calls.get? i = some p → p.won ≠ some step := by
          intro i p hi hp
          exact hfresh ((h.phases i p hi).spent hp)
        refine claimMove hold (claimPhase h hinj hold hclock ⟨?_, spent_of_claim h.claims step _⟩ ?_) ?_ ?_
        · rw [(claimToken_grow _ _ _).1]
          exact hclock
        · intro k hk
          obtain rfl := Option.some.inj hk
          exact .inr hnobody
        · intro k hk
          obtain rfl := Option.some.inj hk
          exact .inr ⟨on, rfl, hfresh⟩
        · exact fun _ _ => TotpPhase.noConfusion
      · -- a replay
        obtain rfl := Except.ok.inj hstep
        refine claimMove hold (claimPhase h hinj hold hclock trivial ?_) ?_ ?_
        · intro k hk
          cases hk
        · intro k hk
          cases hk
        · exact fun _ _ => TotpPhase.noConfusion
    | claimed step =>
      -- an older step counts as claimed whether or not this claim wins it
      obtain rfl := Except.ok.inj hstep
      have hearlier : stepStart (step - 1 - 1) ≤ w.claims.clock := by
        have hle := hphase.1
        unfold stepStart totpStepMicros at hle ⊢
        omega
      have hgrow := claimsGrow_claim w.claims (totpKey hash userId (step - 1)) totpStepClaimTtlSeconds
      refine claimMove hold (claimPhase h hinj hold hearlier
        ⟨Int.le_trans hphase.1 hgrow.clock, hgrow.spent hphase.2, spent_of_claim h.claims (step - 1) _⟩ ?_) ?_ ?_
      · exact fun k hk => .inl hk
      · exact fun k hk => .inl hk
      · exact fun _ _ => TotpPhase.noConfusion
    | retired step =>
      obtain rfl := Except.ok.inj hstep
      have hearlier : stepStart (step - 2 - 1) ≤ w.claims.clock := by
        have hle := hphase.1
        unfold stepStart totpStepMicros at hle ⊢
        omega
      have hgrow := claimsGrow_claim w.claims (totpKey hash userId (step - 2)) totpStepClaimTtlSeconds
      refine claimMove hold (claimPhase h hinj hold hearlier
        ⟨Int.le_trans hphase.1 hgrow.clock, hgrow.spent hphase.2.1, hgrow.spent hphase.2.2,
          spent_of_claim h.claims (step - 2) _⟩ ?_) ?_ ?_
      · exact fun k hk => .inl hk
      · exact fun k hk => .inl hk
      · exact fun _ _ => TotpPhase.noConfusion
    | accepted step => cases hstep
    | refused => cases hstep
  | other event =>
    obtain ⟨claims, hclaims, hstep⟩ := bind_eq_ok.mp hstep
    obtain rfl := Except.ok.inj hstep
    obtain ⟨hgrow, hdated⟩ := claimStep_other hapart h.dated hclaims
    refine ⟨⟨claimInv_step h.claims event hclaims, hdated, fun i p hi => (h.phases i p hi).grow hgrow, h.once⟩, hgrow,
      Nat.le_refl _, fun i p hi step hp => .inl ⟨p, hi, hp⟩, fun i step on hi => .inl hi⟩

/-- After a step was accepted, as those see it that come later. -/
structure AfterAccept (hash : String → String) (userId next : Nat) (step : Int) (w : TotpWorld) : Prop where
  kept : TotpKept hash userId w
  clock : stepStart (step - 1) ≤ w.claims.clock
  spent : ∀ k, step - 2 ≤ k → k ≤ step → SpentStep hash userId w.claims.log k
  matched : ∀ i, next ≤ i → ∀ k on, w.calls.get? i = some (.matched k on) → step - 2 ≤ k
  won : ∀ i, next ≤ i → ∀ phase k, w.calls.get? i = some phase → phase.won = some k → step < k

theorem AfterAccept.move {next : Nat} {step : Int} {w w' : TotpWorld} (h : AfterAccept hash userId next step w)
    (hmove : TotpMove hash userId w w') : AfterAccept hash userId next step w' := by
  have hclock : stepStart (step - 1) ≤ w'.claims.clock := Int.le_trans h.clock hmove.grow.clock
  refine ⟨hmove.kept, hclock, fun k hlow hhigh => hmove.grow.spent (h.spent k hlow hhigh), ?_, ?_⟩
  · intro i hi k on hmatched
    rcases hmove.matched i k on hmatched with hbefore | ⟨rfl, hwindow⟩
    · exact h.matched i hi k on hbefore
    · -- the clock is past the step before the accepted one, so the window starts two before it at the earliest
      have hdiv := Int.mul_ediv_add_emod w'.claims.clock totpStepMicros
      have hhigh := Int.emod_lt_of_pos w'.claims.clock (show (0 : Int) < totpStepMicros by decide)
      unfold timecode at hwindow
      unfold stepStart at hclock
      unfold totpStepMicros at hdiv hhigh hwindow hclock
      omega
  · intro i hi phase' k hphase hk
    rcases hmove.moved i phase' hphase k hk with ⟨phase, hbefore, hwon⟩ | ⟨on, hbefore, hfresh⟩
    · exact h.won i hi phase k hbefore hwon
    · -- the step was won now, so it is none of the three that are spent
      have hlow := h.matched i hi k on hbefore
      exact Int.not_le.mp fun hle => hfresh (h.spent k hlow hle)

/-- The requests after a run, from nobody having asked. -/
def totpAfter (hash : String → String) (otp : Int → String) (userId : Nat) (events : List TotpEvent) : TotpWorld :=
  run (totpStep hash otp userId) {} events

theorem totpKept_after (hinj : ∀ a b, totpKey hash userId a = totpKey hash userId b → a = b) {events : List TotpEvent}
    (hapart : ∀ event ∈ events, event.IsApart hash userId) : TotpKept hash userId (totpAfter hash otp userId events) :=
  run_invariant_of_mem events (fun _ event _ hmem h hstep => (totpMove_of_step hinj h (hapart event hmem) hstep).kept)
    totpKept_start

/-- **A one-time code is accepted once**, in any order of requests, claims and purges: no two
requests win one step, and a request that comes after a step was accepted wins a later one or none. -/
theorem totp_accepted_once (hinj : ∀ a b, totpKey hash userId a = totpKey hash userId b → a = b)
    (before rest : List TotpEvent) (hapart : ∀ event ∈ before ++ rest, event.IsApart hash userId) :
    (∀ i j phase phase' step, (totpAfter hash otp userId (before ++ rest)).calls.get? i = some phase →
      (totpAfter hash otp userId (before ++ rest)).calls.get? j = some phase' →
      phase.won = some step → phase'.won = some step → i = j) ∧
    ∀ i j phase step later, (totpAfter hash otp userId before).calls.get? i = some (.accepted step) →
      (totpAfter hash otp userId before).calls.next ≤ j →
      (totpAfter hash otp userId (before ++ rest)).calls.get? j = some phase → phase.won = some later → step < later := by
  constructor
  · exact (totpKept_after hinj hapart).once
  · intro i j phase step later hi hj hphase hlater
    have hbefore : TotpKept hash userId (totpAfter hash otp userId before) :=
      totpKept_after hinj fun event hmem => hapart event (List.mem_append_left _ hmem)
    obtain ⟨hclock, hspent, hone, htwo⟩ := hbefore.phases i _ hi
    have hstart : AfterAccept hash userId (totpAfter hash otp userId before).calls.next step
        (totpAfter hash otp userId before) := by
      refine ⟨hbefore, hclock, ?_, ?_, ?_⟩
      · intro k hlow hhigh
        rcases (show k = step ∨ k = step - 1 ∨ k = step - 2 by omega) with rfl | rfl | rfl
        · exact hspent
        · exact hone
        · exact htwo
      · intro m hm k on hmatched
        exact absurd (Table.get?_lt_next hmatched) (Nat.not_lt.mpr hm)
      · intro m hm p k hp
        exact absurd (Table.get?_lt_next hp) (Nat.not_lt.mpr hm)
    have hend : AfterAccept hash userId (totpAfter hash otp userId before).calls.next step
        (totpAfter hash otp userId (before ++ rest)) := by
      unfold totpAfter
      rw [run_append]
      refine run_invariant_of_mem rest (fun w event w' hmem h hstep => ?_) hstart
      exact h.move (totpMove_of_step hinj h.kept (hapart event (List.mem_append_right _ hmem)) hstep)
    exact hend.won j hj phase later hphase hlater

theorem totpKey_injective {a b : Int} (h : totpKey id userId a = totpKey id userId b) : a = b := by
  have htext : toString userId ++ ":" ++ toString a = toString userId ++ ":" ++ toString b := congrArg Prod.snd h
  have hchars := congrArg String.toList htext
  rw [String.toList_append, String.toList_append, String.toList_append, String.toList_append] at hchars
  exact Int.repr_injective (String.toList_injective (List.append_cancel_left hchars))

/-- The code of the first step, sent and accepted. -/
def firstCode : List TotpEvent := [.verify "a", .claim 1, .claim 1, .claim 1]

/-- The same code again, and that of the next step. -/
def nextCodes : List TotpEvent := [.verify "a", .claim 2, .verify "b", .claim 3]

def firstCodes (step : Int) : String := if step = 0 then "a" else "b"

/-- The same code is refused, and the next one is not. -/
theorem totp_accepted_once_next :
    (totpAfter id firstCodes 7 (firstCode ++ nextCodes)).calls.get? 2 = some .refused ∧
      ∃ later, (totpAfter id firstCodes 7 (firstCode ++ nextCodes)).calls.get? 3 = some (.claimed later) ∧ 0 < later := by
  have hapart : ∀ event ∈ firstCode ++ nextCodes, event.IsApart id 7 := by
    intro event hevent
    rcases List.mem_append.mp hevent with hevent | hevent
    · simp only [firstCode, List.mem_cons, List.not_mem_nil, or_false] at hevent
      rcases hevent with rfl | rfl | rfl | rfl <;> trivial
    · simp only [nextCodes, List.mem_cons, List.not_mem_nil, or_false] at hevent
      rcases hevent with rfl | rfl | rfl | rfl <;> trivial
  have hfirst : (totpAfter id firstCodes 7 firstCode).calls.get? 1 = some (.accepted 0) := by decide +kernel
  have hnext : (totpAfter id firstCodes 7 firstCode).calls.next ≤ 3 := by decide +kernel
  have hthird : (totpAfter id firstCodes 7 (firstCode ++ nextCodes)).calls.get? 3 = some (.claimed 1) := by
    decide +kernel
  have hlater := (totp_accepted_once (fun _ _ => totpKey_injective) firstCode nextCodes hapart).2 1 3 (.claimed 1) 0 1
    hfirst hnext hthird rfl
  exact ⟨by decide +kernel, 1, hthird, hlater⟩

end BetterDecision
