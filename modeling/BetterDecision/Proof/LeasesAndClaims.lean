import BetterDecision.Lib.Locks
import BetterDecision.Model.LeasesAndClaims
import Mathlib.Data.List.Induction

/-!
# One holder, and one use

While a lease lasts, the row is its holder's: to take the row over it must have expired, to
insert one there must be none, and a release deletes only the row with its own token. So two
who hold a lease hold the same row. A call that is refused found a row in the way, and that
row was unexpired when the call found it or when it was written, which was during the call.

A token that was claimed stays recorded until its time is up, whatever is purged, so a claim
within that time is lost; one after it wins.
-/

namespace BetterDecision

/-! ## Leases -/

/-- What a step can do. -/
inductive LeaseMove (w : LeaseWorld) : LeaseWorld → Prop
  | tick (later : Int) : w.clock ≤ later → LeaseMove w { w with clock := later }
  | acquire (name : String) (ttl : ℕ+) : LeaseMove w { w with calls := w.calls.insert (.updating name ttl) }
  /-- There is no expired row. -/
  | pass (id : Nat) (name : String) (ttl : ℕ+) : w.calls.get? id = some (.updating name ttl) →
      (∀ lease ∈ w.leases name, w.clock < lease.expiresAt) → LeaseMove w (w.goto id (.inserting name ttl))
  | take (id : Nat) (name : String) (ttl : ℕ+) :
      (w.calls.get? id = some (.updating name ttl) ∨ w.calls.get? id = some (.inserting name ttl)) →
      (∀ lease ∈ w.leases name, lease.expiresAt ≤ w.clock) → LeaseMove w (w.take id name ttl)
  | refuse (id : Nat) (name : String) (ttl : ℕ+) (lease : Lease) : w.calls.get? id = some (.inserting name ttl) →
      w.leases name = some lease → LeaseMove w (w.goto id (.refused name))
  | release (id : Nat) (name : String) (phase : LeasePhase) : w.calls.get? id = some phase →
      LeaseMove w { (w.goto id (.released name)) with leases := withoutHolder w.leases name id }

theorem leaseMove_of_step {w w' : LeaseWorld} {event : LeaseEvent} (h : leaseStep w event = .ok w') : LeaseMove w w' := by
  cases event with
  | tick later =>
    obtain ⟨_, hlater, h⟩ := bind_eq_ok.mp h
    obtain rfl := Except.ok.inj h
    exact .tick later (not_lt.mp (refuse_eq_ok.mp hlater))
  | acquire name ttl =>
    obtain rfl := Except.ok.inj h
    exact .acquire name ttl
  | update id =>
    obtain ⟨phase, hcall, h⟩ := bind_eq_ok.mp h
    rw [found_eq_ok] at hcall
    cases phase with
    | updating name ttl =>
      dsimp only at h
      split at h
      · rename_i hnone
        obtain rfl := Except.ok.inj h
        exact .pass id name ttl hcall fun lease hlease => nomatch hnone.symm.trans hlease
      · rename_i lease hlease
        split at h
        · rename_i hexpired
          obtain rfl := Except.ok.inj h
          exact .take id name ttl (.inl hcall) fun l hl => Option.some.inj (hlease.symm.trans hl) ▸ hexpired
        · rename_i hlive
          obtain rfl := Except.ok.inj h
          exact .pass id name ttl hcall fun l hl => Option.some.inj (hlease.symm.trans hl) ▸ not_le.mp hlive
    | _ => cases h
  | insert id =>
    obtain ⟨phase, hcall, h⟩ := bind_eq_ok.mp h
    rw [found_eq_ok] at hcall
    cases phase with
    | inserting name ttl =>
      dsimp only at h
      split at h
      · rename_i hnone
        obtain rfl := Except.ok.inj h
        exact .take id name ttl (.inr hcall) fun lease hlease => nomatch hnone.symm.trans hlease
      · rename_i lease hlease
        obtain rfl := Except.ok.inj h
        exact .refuse id name ttl lease hcall hlease
    | _ => cases h
  | release id =>
    obtain ⟨phase, hcall, h⟩ := bind_eq_ok.mp h
    rw [found_eq_ok] at hcall
    cases phase with
    | acquired name expiresAt =>
      obtain rfl := Except.ok.inj h
      exact .release id name _ hcall
    | released name =>
      obtain rfl := Except.ok.inj h
      exact .release id name _ hcall
    | _ => cases h

/-- The call was told that it holds the lease, has not released it, and the lease lasts. -/
def HoldsLease (w : LeaseWorld) (id : Nat) (name : String) : Prop :=
  ∃ expiresAt, w.calls.get? id = some (.acquired name expiresAt) ∧ w.clock < expiresAt

/-- While a lease lasts, the row is its holder's. -/
def LeasesKept (w : LeaseWorld) : Prop :=
  ∀ id name expiresAt, w.calls.get? id = some (.acquired name expiresAt) → w.clock < expiresAt →
    w.leases name = some { holder := id, expiresAt }

theorem LeasesKept.take {w : LeaseWorld} (h : LeasesKept w) {id : Nat} {name : String} (ttl : ℕ+) {phase : LeasePhase}
    (hcall : w.calls.get? id = some phase) (hfree : ∀ lease ∈ w.leases name, lease.expiresAt ≤ w.clock) :
    LeasesKept (w.take id name ttl) := by
  intro j other expiresAt hj hlasts
  rcases Table.get?_modify_cases hcall hj with ⟨rfl, heq⟩ | ⟨-, hj⟩
  · cases heq
    exact Function.update_self name _ w.leases
  · have hrow := h j other expiresAt hj hlasts
    by_cases hname : other = name
    · subst hname
      exact absurd (hfree _ hrow) (not_le.mpr hlasts)
    · exact (Function.update_of_ne hname _ w.leases).trans hrow

/-- Deleting the row with a token leaves every other holder's. -/
theorem withoutHolder_of_ne {leases : String → Option Lease} {name other : String} {id : Nat} {lease : Lease}
    (hlease : leases other = some lease) (hne : lease.holder ≠ id) : withoutHolder leases name id other = some lease := by
  by_cases hname : other = name
  · subst hname
    refine (Function.update_self other _ leases).trans ?_
    rw [hlease]
    exact Option.filter_some_pos (decide_eq_true hne)
  · exact (Function.update_of_ne hname _ leases).trans hlease

theorem LeasesKept.move {w w' : LeaseWorld} (h : LeasesKept w) (hmove : LeaseMove w w') : LeasesKept w' := by
  cases hmove with
  | tick later hlater => exact fun id name expiresAt hcall hlasts => h id name expiresAt hcall (hlater.trans_lt hlasts)
  | acquire name ttl =>
    intro id other expiresAt hcall hlasts
    rcases Table.get?_insert_cases hcall with ⟨-, heq⟩ | ⟨-, hcall⟩
    · cases heq
    · exact h id other expiresAt hcall hlasts
  | pass id name ttl hcall _ =>
    intro j other expiresAt hj hlasts
    rcases Table.get?_modify_cases hcall hj with ⟨-, heq⟩ | ⟨-, hj⟩
    · cases heq
    · exact h j other expiresAt hj hlasts
  | take id name ttl hcall hfree => exact hcall.elim (fun hcall => h.take ttl hcall hfree) fun hcall => h.take ttl hcall hfree
  | refuse id name ttl lease hcall _ =>
    intro j other expiresAt hj hlasts
    rcases Table.get?_modify_cases hcall hj with ⟨-, heq⟩ | ⟨-, hj⟩
    · cases heq
    · exact h j other expiresAt hj hlasts
  | release id name phase hcall =>
    intro j other expiresAt hj hlasts
    rcases Table.get?_modify_cases hcall hj with ⟨-, heq⟩ | ⟨hne, hj⟩
    · cases heq
    · exact withoutHolder_of_ne (h j other expiresAt hj hlasts) hne

theorem leasesKept_run (events : List LeaseEvent) : LeasesKept (run leaseStep {} events) :=
  run_invariant (fun _ _ _ h hstep => h.move (leaseMove_of_step hstep)) events fun _ _ _ hcall _ => nomatch hcall

/-! ### Refusals -/

/-- The call has been made, and has not returned. -/
def UnderWay (w : LeaseWorld) (id : Nat) (name : String) : Prop :=
  ∃ ttl, w.calls.get? id = some (.updating name ttl) ∨ w.calls.get? id = some (.inserting name ttl)

/-- Somebody's lease lasts. -/
def LiveLease (w : LeaseWorld) (name : String) : Prop := ∃ lease ∈ w.leases name, w.clock < lease.expiresAt

/-- At some moment of the call there was a lease that lasts. -/
def SeenLive (events : List LeaseEvent) (id : Nat) (name : String) : Prop :=
  ∃ before after, events = before ++ after ∧ UnderWay (run leaseStep {} before) id name ∧
    LiveLease (run leaseStep {} before) name

theorem SeenLive.later {events : List LeaseEvent} {id : Nat} {name : String} (h : SeenLive events id name)
    (event : LeaseEvent) : SeenLive (events ++ [event]) id name := by
  obtain ⟨before, after, rfl, hway, hlive⟩ := h
  exact ⟨before, after ++ [event], List.append_assoc _ _ _, hway, hlive⟩

/-- A row that is in the way of a call was unexpired at some moment of the call. -/
structure Contended (events : List LeaseEvent) : Prop where
  inserting : ∀ id name ttl, (run leaseStep {} events).calls.get? id = some (.inserting name ttl) →
    ∀ lease ∈ (run leaseStep {} events).leases name, SeenLive events id name
  refused : ∀ id name, (run leaseStep {} events).calls.get? id = some (.refused name) → SeenLive events id name

theorem liveLease_take (w : LeaseWorld) (id : Nat) (name : String) (ttl : ℕ+) : LiveLease (w.take id name ttl) name := by
  refine ⟨{ holder := id, expiresAt := dbNow w.clock ttl }, Function.update_self name _ w.leases, ?_⟩
  have hpos := ttl.pos
  change w.clock < dbNow w.clock ttl
  unfold dbNow
  omega

theorem Contended.move {events : List LeaseEvent} (h : Contended events) (event : LeaseEvent) {w' : LeaseWorld}
    (hrun : run leaseStep {} (events ++ [event]) = w') (hmove : LeaseMove (run leaseStep {} events) w') :
    Contended (events ++ [event]) := by
  have hnow : ∀ {id name}, UnderWay (run leaseStep {} events) id name → LiveLease (run leaseStep {} events) name →
      SeenLive (events ++ [event]) id name := fun hway hlive => ⟨events, [event], rfl, hway, hlive⟩
  have hthen : ∀ {id name}, UnderWay w' id name → LiveLease w' name → SeenLive (events ++ [event]) id name :=
    fun hway hlive => ⟨events ++ [event], [], (List.append_nil _).symm, hrun ▸ hway, hrun ▸ hlive⟩
  constructor
  all_goals rw [hrun]
  all_goals clear hrun
  · intro id name ttl hcall lease hlease
    cases hmove with
    | tick later _ => exact (h.inserting id name ttl hcall lease hlease).later event
    | acquire other ttl' =>
      rcases Table.get?_insert_cases hcall with ⟨-, heq⟩ | ⟨-, hcall⟩
      · cases heq
      · exact (h.inserting id name ttl hcall lease hlease).later event
    | pass j other ttl' hj hlive =>
      rcases Table.get?_modify_cases hj hcall with ⟨rfl, heq⟩ | ⟨-, hcall⟩
      · -- the row the update left alone
        cases heq
        exact hnow ⟨ttl, .inl hj⟩ ⟨lease, hlease, hlive lease hlease⟩
      · exact (h.inserting id name ttl hcall lease hlease).later event
    | take j other ttl' hj hfree =>
      by_cases hname : name = other
      · -- the row another call has just written
        subst hname
        exact hthen ⟨ttl, .inr hcall⟩ (liveLease_take _ j name ttl')
      · have hlease := (Function.update_of_ne hname _ (run leaseStep {} events).leases).symm.trans hlease
        rcases hj with hj | hj
        all_goals
          rcases Table.get?_modify_cases hj hcall with ⟨-, heq⟩ | ⟨-, hcall⟩
          · cases heq
          · exact (h.inserting id name ttl hcall lease hlease).later event
    | refuse j other ttl' row hj _ =>
      rcases Table.get?_modify_cases hj hcall with ⟨-, heq⟩ | ⟨-, hcall⟩
      · cases heq
      · exact (h.inserting id name ttl hcall lease hlease).later event
    | release j other phase hj =>
      rcases Table.get?_modify_cases hj hcall with ⟨-, heq⟩ | ⟨-, hcall⟩
      · cases heq
      · have hwas : ∃ l, l ∈ (run leaseStep {} events).leases name := by
          by_cases hname : name = other
          · subst hname
            have hkept := (Function.update_self name _ (run leaseStep {} events).leases).symm.trans hlease
            exact ⟨lease, (Option.filter_eq_some_iff.mp hkept).1⟩
          · exact ⟨lease, (Function.update_of_ne hname _ _).symm.trans hlease⟩
        obtain ⟨l, hl⟩ := hwas
        exact (h.inserting id name ttl hcall l hl).later event
  · intro id name hcall
    cases hmove with
    | tick later _ => exact (h.refused id name hcall).later event
    | acquire other ttl' =>
      rcases Table.get?_insert_cases hcall with ⟨-, heq⟩ | ⟨-, hcall⟩
      · cases heq
      · exact (h.refused id name hcall).later event
    | pass j other ttl' hj _ =>
      rcases Table.get?_modify_cases hj hcall with ⟨-, heq⟩ | ⟨-, hcall⟩
      · cases heq
      · exact (h.refused id name hcall).later event
    | take j other ttl' hj _ =>
      rcases hj with hj | hj
      all_goals
        rcases Table.get?_modify_cases hj hcall with ⟨-, heq⟩ | ⟨-, hcall⟩
        · cases heq
        · exact (h.refused id name hcall).later event
    | refuse j other ttl' lease hj hlease =>
      rcases Table.get?_modify_cases hj hcall with ⟨rfl, heq⟩ | ⟨-, hcall⟩
      · cases heq
        exact (h.inserting id name ttl' hj lease hlease).later event
      · exact (h.refused id name hcall).later event
    | release j other phase hj =>
      rcases Table.get?_modify_cases hj hcall with ⟨-, heq⟩ | ⟨-, hcall⟩
      · cases heq
      · exact (h.refused id name hcall).later event

theorem contended_run (events : List LeaseEvent) : Contended events := by
  induction events using List.reverseRecOn with
  | nil => exact ⟨fun _ _ _ hcall => (nomatch hcall), fun _ _ hcall => (nomatch hcall)⟩
  | append_singleton events event ih =>
    cases hstep : leaseStep (run leaseStep {} events) event with
    | ok w' =>
      have hrun : run leaseStep {} (events ++ [event]) = w' := by rw [run_concat, serve_of_ok hstep]
      exact ih.move event hrun (leaseMove_of_step hstep)
    | error e =>
      have hrun : run leaseStep {} (events ++ [event]) = run leaseStep {} events := by
        rw [run_concat, serve, hstep]
      constructor
      · rw [hrun]
        exact fun id name ttl hcall lease hlease => (ih.inserting id name ttl hcall lease hlease).later event
      · rw [hrun]
        exact fun id name hcall => (ih.refused id name hcall).later event

/-- What it is for leases to be exclusive. -/
structure LeasesExclusive (events : List LeaseEvent) : Prop where
  one : ∀ id id' name, HoldsLease (run leaseStep {} events) id name → HoldsLease (run leaseStep {} events) id' name → id = id'
  /-- The row is the holder's, and a release by another leaves it. -/
  kept : ∀ id name, HoldsLease (run leaseStep {} events) id name → ∀ other ≠ id,
    ∃ lease ∈ (run leaseStep {} (events ++ [.release other])).leases name, lease.holder = id
  refused : ∀ id name, (run leaseStep {} events).calls.get? id = some (.refused name) → SeenLive events id name

theorem leasesExclusive (events : List LeaseEvent) : LeasesExclusive events where
  one id id' name hid hid' := by
    obtain ⟨expiresAt, hcall, hlasts⟩ := hid
    obtain ⟨expiresAt', hcall', hlasts'⟩ := hid'
    have hrow := leasesKept_run events id name expiresAt hcall hlasts
    have hrow' := leasesKept_run events id' name expiresAt' hcall' hlasts'
    exact congrArg Lease.holder (Option.some.inj (hrow.symm.trans hrow'))
  kept id name hid other hne := by
    obtain ⟨expiresAt, hcall, hlasts⟩ := hid
    have hrow := leasesKept_run events id name expiresAt hcall hlasts
    rw [run_concat]
    unfold serve
    split
    · rename_i w' hstep
      obtain ⟨phase, -, hstep⟩ := bind_eq_ok.mp hstep
      cases phase with
      | acquired name' expiresAt' =>
        obtain rfl := Except.ok.inj hstep
        exact ⟨_, withoutHolder_of_ne hrow hne.symm, rfl⟩
      | released name' =>
        obtain rfl := Except.ok.inj hstep
        exact ⟨_, withoutHolder_of_ne hrow hne.symm, rfl⟩
      | _ => cases hstep
    · exact ⟨_, hrow, rfl⟩
  refused := (contended_run events).refused

/-! ## Single-use tokens -/

def ClaimRecord.expiresAt (c : ClaimRecord) : Int := dbNow c.madeAt c.ttl

/-- A claim of the token that was won, and whose time is not up. -/
def ClaimedBy (log : List ClaimRecord) (key : String × String) (now : Int) : Prop :=
  ∃ c ∈ log, c.key = key ∧ c.won = true ∧ now < c.expiresAt

/-- The rows are those of the claims whose time is not up, among others. -/
structure ClaimInv (w : ClaimWorld) : Prop where
  recorded : ∀ key now, w.clock ≤ now → ClaimedBy w.log key now → ∃ expiresAt ∈ w.used key, now < expiresAt
  used : ∀ key, ∀ expiresAt ∈ w.used key, ∃ c ∈ w.log, c.key = key ∧ c.won = true ∧ c.expiresAt = expiresAt
  decided : ∀ before c after, w.log = before ++ c :: after → (c.won = true ↔ ¬ ClaimedBy before c.key c.madeAt)

theorem claimInv_init : ClaimInv {} where
  recorded _ _ _ h := by
    obtain ⟨c, hc, -⟩ := h
    cases hc
  used _ _ h := nomatch h
  decided before c after heq := by simp at heq

/-- A log with one more claim decides it by the claims before. -/
theorem decided_concat {log : List ClaimRecord} {c : ClaimRecord}
    (h : ∀ before c after, log = before ++ c :: after → (c.won = true ↔ ¬ ClaimedBy before c.key c.madeAt))
    (hc : c.won = true ↔ ¬ ClaimedBy log c.key c.madeAt) (before : List ClaimRecord) (d : ClaimRecord)
    (after : List ClaimRecord) (heq : log ++ [c] = before ++ d :: after) :
    d.won = true ↔ ¬ ClaimedBy before d.key d.madeAt := by
  rcases List.eq_nil_or_concat after with rfl | ⟨after, last, rfl⟩
  · obtain ⟨rfl, hlast⟩ := List.append_inj' heq rfl
    obtain rfl := (List.cons.inj hlast).1
    exact hc
  · rw [List.concat_eq_append, ← List.cons_append, ← List.append_assoc] at heq
    exact h before d after (List.append_inj' heq rfl).1

theorem claimedBy_concat {log : List ClaimRecord} {c : ClaimRecord} {key : String × String} {now : Int} :
    ClaimedBy (log ++ [c]) key now ↔ ClaimedBy log key now ∨ c.key = key ∧ c.won = true ∧ now < c.expiresAt := by
  unfold ClaimedBy
  simp only [List.mem_append, List.mem_singleton]
  constructor
  · rintro ⟨d, hd | rfl, hrest⟩
    · exact .inl ⟨d, hd, hrest⟩
    · exact .inr hrest
  · rintro (⟨d, hd, hrest⟩ | hrest)
    · exact ⟨d, .inl hd, hrest⟩
    · exact ⟨c, .inr rfl, hrest⟩

theorem ClaimInv.claim {w : ClaimWorld} (h : ClaimInv w) (key : String × String) (ttl : Int) :
    ClaimInv (claimToken w key ttl) := by
  unfold claimToken
  dsimp only
  split
  · -- it is recorded, and its time is not up
    rename_i expiresAt hkept
    obtain ⟨hrow, hlive⟩ := Option.filter_eq_some_iff.mp hkept
    obtain ⟨c, hc, hkey, hwon, rfl⟩ := h.used key expiresAt hrow
    have hclaimed : ClaimedBy w.log key w.clock := ⟨c, hc, hkey, hwon, of_decide_eq_true hlive⟩
    refine ⟨fun other now hnow hby => ?_, fun other e he => ?_, decided_concat h.decided ?_⟩
    · rcases claimedBy_concat.mp hby with hby | ⟨-, hlost, -⟩
      · exact h.recorded other now hnow hby
      · cases hlost
    · obtain ⟨d, hd, hrest⟩ := h.used other e he
      exact ⟨d, List.mem_append_left _ hd, hrest⟩
    · exact ⟨fun hlost => (nomatch hlost), fun hfree => absurd hclaimed hfree⟩
  · rename_i hkept
    have hfree : ¬ ClaimedBy w.log key w.clock := by
      intro hby
      obtain ⟨expiresAt, hrow, hlive⟩ := h.recorded key w.clock le_rfl hby
      have hlive : (some expiresAt).filter (w.clock < ·) = some expiresAt := Option.filter_some_pos (decide_eq_true hlive)
      rw [hrow, hlive] at hkept
      cases hkept
    refine ⟨fun other now hnow hby => ?_, fun other e he => ?_, decided_concat h.decided ?_⟩
    · by_cases hother : other = key
      · subst hother
        refine ⟨_, Function.update_self other _ w.used, ?_⟩
        rcases claimedBy_concat.mp hby with ⟨c, hc, hkey, hwon, hlive⟩ | ⟨-, -, hlive⟩
        · exact absurd ⟨c, hc, hkey, hwon, hnow.trans_lt hlive⟩ hfree
        · exact hlive
      · rcases claimedBy_concat.mp hby with hby | ⟨hkey, -, -⟩
        · obtain ⟨e, he, hlive⟩ := h.recorded other now hnow hby
          exact ⟨e, (Function.update_of_ne hother _ w.used).trans he, hlive⟩
        · exact absurd hkey.symm hother
    · by_cases hother : other = key
      · subst hother
        obtain rfl := Option.some.inj ((Function.update_self other _ w.used).symm.trans he)
        exact ⟨_, List.mem_append_right _ List.mem_cons_self, rfl, rfl, rfl⟩
      · obtain ⟨d, hd, hrest⟩ := h.used other e ((Function.update_of_ne hother _ w.used).symm.trans he)
        exact ⟨d, List.mem_append_left _ hd, hrest⟩
    · exact ⟨fun _ => hfree, fun _ => rfl⟩

theorem claimInv_step {hash : String → String} {w w' : ClaimWorld} (h : ClaimInv w) (event : ClaimEvent)
    (hstep : claimStep hash w event = .ok w') : ClaimInv w' := by
  cases event with
  | tick later =>
    obtain ⟨_, hlater, hstep⟩ := bind_eq_ok.mp hstep
    obtain rfl := Except.ok.inj hstep
    have hlater := not_lt.mp (refuse_eq_ok.mp hlater)
    exact ⟨fun key now hnow => h.recorded key now (hlater.trans hnow), h.used, h.decided⟩
  | claim scope token ttl =>
    obtain rfl := Except.ok.inj hstep
    exact h.claim (scope, hash token) ttl
  | purge stale =>
    obtain ⟨_, hstale, hstep⟩ := bind_eq_ok.mp hstep
    obtain rfl := Except.ok.inj hstep
    have hstale := Classical.not_not.mp (refuse_eq_ok.mp hstale)
    refine ⟨fun key now hnow hby => ?_, fun key e he => ?_, h.decided⟩
    · -- what is purged was up before now
      obtain ⟨e, he, hlive⟩ := h.recorded key now hnow hby
      have hkept : key ∉ stale := fun hmem => by
        obtain ⟨e', he', hold⟩ := hstale key hmem
        obtain rfl := Option.mem_unique he he'
        have hmargin : purgeMargin = 60 := rfl
        have hnow : w.clock ≤ now := hnow
        unfold dbNow at hold
        omega
      exact ⟨e, (if_neg hkept).trans he, hlive⟩
    · by_cases hmem : key ∈ stale
      · cases (if_pos hmem).symm.trans he
      · exact h.used key e ((if_neg hmem).symm.trans he)

/-- What it is for claims to be exclusive. -/
structure ClaimsExclusive (log : List ClaimRecord) : Prop where
  /-- A claim is won unless the token was claimed, and its time is not up. -/
  decided : ∀ before c after, log = before ++ c :: after → (c.won = true ↔ ¬ ClaimedBy before c.key c.madeAt)
  /-- Of the claims of a token from one that is won on, made before its time is up, it is the only one. -/
  once : ∀ before c after, log = before ++ c :: after → c.won = true →
    ∀ d ∈ after, d.key = c.key → d.madeAt < c.expiresAt → d.won = false

/-- **Leases and claims are exclusive**: a lease has one holder while it lasts, another's
release leaves it, and a caller is refused only by a lease that lasts; of the claims of a
token within its time one is won. -/
theorem leases_and_claims_exclusive (leaseEvents : List LeaseEvent) (hash : String → String)
    (claimEvents : List ClaimEvent) :
    LeasesExclusive leaseEvents ∧ ClaimsExclusive (run (claimStep hash) {} claimEvents).log := by
  have hinv : ClaimInv (run (claimStep hash) {} claimEvents) :=
    run_invariant (fun _ event _ h hstep => claimInv_step h event hstep) claimEvents claimInv_init
  refine ⟨leasesExclusive leaseEvents, hinv.decided, fun before c after heq hwon d hd hkey hlive => ?_⟩
  obtain ⟨mid, after', rfl⟩ := List.append_of_mem hd
  have hdecided := hinv.decided (before ++ c :: mid) d after' (by rw [heq, List.append_assoc]; rfl)
  refine eq_false_of_ne_true fun hwins => hdecided.mp hwins ?_
  exact ⟨c, List.mem_append_right _ List.mem_cons_self, hkey.symm, hwon, hlive⟩

end BetterDecision
