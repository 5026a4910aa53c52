import BetterDecision.Model.RateLimits
import Mathlib.Tactic.Linarith

/-!
# Every hit counts in its window

A row holds what its window has come to, and ends when the first hit of the window said. A
key without a row has no window, or one that ended longer than the margin ago, and no hit
still to come has a clock that old: it starts a window in either case. So the count of a
hit is what the window has come to, whatever is deleted meanwhile.
-/

namespace BetterDecision

open Windows

variable {hash : String → String} {expiry : String → ℚ}

/-- The first hit of the open window of a key, which says when it ends. -/
def openedBy (key : String) (log : List (Hit String ℚ)) : Option (Hit String ℚ) := (window key log).head?

/-- What holds of the rows, of the log, and of the calls that are under way. -/
structure LimitInv (expiry : String → ℚ) (w : LimitWorld) : Prop where
  counted : Windows.Counted w.log
  positive : ∀ h ∈ w.log, 1 ≤ h.amount
  row : ∀ key row, w.rows key = some row → row.hits = total (window key w.log) ∧
    ∃ s ∈ openedBy key w.log, row.expiresAt = s.clock + expiry key
  /-- A key without a row has no window that anybody could still count in. -/
  ended : ∀ key, w.rows key = none → ∀ s ∈ openedBy key w.log, s.clock + expiry key + limitPurgeMargin < w.clock
  restarted : ∀ before h after, w.log = before ++ h :: after → h.starts = true →
    ∀ s ∈ openedBy h.key before, s.clock + expiry h.key ≤ h.clock
  read : ∀ id key amount now, w.calls.get? id = some (.read key amount now) → now ≤ w.clock
  late : ∀ id key now count, w.calls.get? id = some (.counted key now count) → now ≤ w.clock ∧
    ∃ h ∈ w.log, h.call = id ∧ h.count = count
  returned : ∀ id count, w.calls.get? id = some (.returned count) → ∃ h ∈ w.log, h.call = id ∧ h.count = count
  removed : ∀ r ∈ w.removed, r.before ≤ w.log.length ∧ r.expiresAt + limitPurgeMargin < w.clock ∧
    (∃ s ∈ openedBy r.key (w.log.take r.before), r.expiresAt = s.clock + expiry r.key) ∧
    ∀ h ∈ w.log.drop r.before, h.key = r.key → r.expiresAt ≤ h.clock

theorem limitInv_init : LimitInv expiry {} where
  counted before h after heq := by simp at heq
  positive _ h := nomatch h
  row _ _ h := nomatch h
  ended _ _ _ h := nomatch h
  restarted before h after heq := by simp at heq
  read _ _ _ _ h := nomatch h
  late _ _ _ _ h := nomatch h
  returned _ _ h := nomatch h
  removed _ h := nomatch h

theorem LimitInv.tick {w : LimitWorld} (h : LimitInv expiry w) {later : ℚ} (hlater : w.clock ≤ later) :
    LimitInv expiry { w with clock := later } where
  counted := h.counted
  positive := h.positive
  row := h.row
  ended key hnone s hs := (h.ended key hnone s hs).trans_le hlater
  restarted := h.restarted
  read id key amount now hcall := (h.read id key amount now hcall).trans hlater
  late id key now count hcall := ⟨(h.late id key now count hcall).1.trans hlater, (h.late id key now count hcall).2⟩
  returned := h.returned
  removed r hr := by
    obtain ⟨hbefore, hold, hrest⟩ := h.removed r hr
    exact ⟨hbefore, hold.trans_le hlater, hrest⟩

theorem LimitInv.begin {w : LimitWorld} (h : LimitInv expiry w) (key : String) (amount : ℕ+) :
    LimitInv expiry { w with calls := w.calls.insert (.read key amount w.clock) } where
  counted := h.counted
  positive := h.positive
  row := h.row
  ended := h.ended
  restarted := h.restarted
  read id key' amount' now hcall := by
    rcases Table.get?_insert_cases hcall with ⟨-, heq⟩ | ⟨-, hcall⟩
    · cases heq
      exact le_rfl
    · exact h.read id key' amount' now hcall
  late id key' now count hcall := by
    rcases Table.get?_insert_cases hcall with ⟨-, heq⟩ | ⟨-, hcall⟩
    · cases heq
    · exact h.late id key' now count hcall
  returned id count hcall := by
    rcases Table.get?_insert_cases hcall with ⟨-, heq⟩ | ⟨-, hcall⟩
    · cases heq
    · exact h.returned id count hcall
  removed := h.removed

/-! ## A hit -/

section Execute

variable {w : LimitWorld} {id : Nat} {key : String} {amount : ℕ+} {now : ℚ}

/-- The hit a call makes. -/
def hitOf (w : LimitWorld) (id : Nat) (key : String) (amount : ℕ+) (now expiry : ℚ) : Hit String ℚ where
  call := id
  key := key
  amount := amount
  clock := now
  count := (upsertStmt (w.rows key) now expiry amount).hits
  starts := startsWindow (w.rows key) now

/-- The window after a hit, with the row's count and end. -/
theorem LimitInv.window_hit (h : LimitInv expiry w) :
    let hit := hitOf w id key amount now (expiry key)
    hit.count = total (window key (w.log ++ [hit])) ∧
      ∃ s ∈ openedBy key (w.log ++ [hit]),
        (upsertStmt (w.rows key) now (expiry key) amount).expiresAt = s.clock + expiry key := by
  intro hit
  have hkey : hit.key = key := rfl
  cases hstarts : hit.starts with
  | true =>
    have hwindow : window key (w.log ++ [hit]) = [hit] := window_starts hstarts w.log
    have hcount : hit.count = amount ∧ (upsertStmt (w.rows key) now (expiry key) amount).expiresAt = now + expiry key := by
      change (upsertStmt (w.rows key) now (expiry key) amount).hits = amount ∧ _
      change startsWindow (w.rows key) now = true at hstarts
      cases hrow : w.rows key with
      | none => exact ⟨rfl, rfl⟩
      | some row =>
        rw [hrow] at hstarts
        have hover : row.Expired now := of_decide_eq_true hstarts
        exact ⟨if_pos hover, if_pos hover⟩
    unfold openedBy
    rw [hwindow]
    exact ⟨hcount.1.trans (Nat.add_zero _).symm, hit, rfl, hcount.2⟩
  | false =>
    have hwindow : window key (w.log ++ [hit]) = window key w.log ++ [hit] := window_joins hstarts w.log
    change startsWindow (w.rows key) now = false at hstarts
    cases hrow : w.rows key with
    | none =>
      rw [hrow] at hstarts
      cases hstarts
    | some row =>
      rw [hrow] at hstarts
      have hover : ¬ row.Expired now := of_decide_eq_false hstarts
      obtain ⟨hhits, s, hs, hexpires⟩ := h.row key row hrow
      refine ⟨?_, s, ?_, ?_⟩
      · change (upsertStmt (w.rows key) now (expiry key) amount).hits = _
        rw [hwindow, total_concat, ← hhits, hrow]
        exact if_neg hover
      · unfold openedBy at hs ⊢
        rw [hwindow]
        exact List.mem_head?_append_of_mem_head? hs
      · exact (if_neg hover).trans hexpires

theorem LimitInv.execute (h : LimitInv expiry w) (hcall : w.calls.get? id = some (.read key amount now))
    (hsoon : w.clock - now < limitPurgeMargin) :
    LimitInv expiry { (w.goto id (.counted key now (upsertStmt (w.rows key) now (expiry key) amount).hits)) with
      rows := Function.update w.rows key (some (upsertStmt (w.rows key) now (expiry key) amount))
      log := w.log ++ [hitOf w id key amount now (expiry key)] } := by
  have hnow := h.read id key amount now hcall
  obtain ⟨hcount, s, hs, hexpires⟩ := @LimitInv.window_hit expiry w id key amount now h
  generalize hhit : hitOf w id key amount now (expiry key) = hit at hcount hs
  have hkey : hit.key = key := hhit ▸ rfl
  have hclock : hit.clock = now := hhit ▸ rfl
  have hhits : (upsertStmt (w.rows key) now (expiry key) amount).hits = hit.count := hhit ▸ rfl
  have hopened : ∀ {other : String}, other ≠ key → window other (w.log ++ [hit]) = window other w.log :=
    fun hne => window_other (hkey ▸ hne.symm) w.log
  have hlogged : ∀ {id count}, (∃ e ∈ w.log, e.call = id ∧ e.count = count) →
      ∃ e ∈ w.log ++ [hit], e.call = id ∧ e.count = count :=
    fun ⟨e, he, heq⟩ => ⟨e, List.mem_append_left _ he, heq⟩
  have hphase : (w.calls.modify id fun _ => HitPhase.counted key now hit.count).get? id = _ :=
    Table.get?_modify_self hcall
  rw [hhits]
  refine ⟨h.counted.concat (hkey ▸ hcount), fun e he => ?_, fun other row hrow => ?_, fun other hnone t ht => ?_,
    fun before e after heq hstarts t ht => ?_, fun j key' amount' now' hj => ?_, fun j key' now' count hj => ?_,
    fun j count hj => ?_, fun r hr => ?_⟩
  · rcases List.mem_append.mp he with he | he
    · exact h.positive e he
    · obtain rfl := List.mem_singleton.mp he
      exact hhit ▸ amount.pos
  · by_cases hother : other = key
    · subst hother
      obtain rfl := Option.some.inj ((Function.update_self other _ w.rows).symm.trans hrow)
      exact ⟨hhits.trans hcount, s, hs, hexpires⟩
    · have hrow := (Function.update_of_ne hother _ w.rows).symm.trans hrow
      unfold openedBy
      rw [hopened hother]
      exact h.row other row hrow
  · by_cases hother : other = key
    · subst hother
      cases (Function.update_self other _ w.rows).symm.trans hnone
    · have hnone := (Function.update_of_ne hother _ w.rows).symm.trans hnone
      unfold openedBy at ht
      rw [hopened hother] at ht
      exact h.ended other hnone t ht
  · rcases List.eq_nil_or_concat after with rfl | ⟨after, last, rfl⟩
    · -- the new hit: its window was over by its clock, or gone for longer than its clock is old
      obtain ⟨rfl, hlast⟩ := List.append_inj' heq rfl
      obtain rfl := (List.cons.inj hlast).1
      rw [hkey] at ht ⊢
      rw [hclock]
      rw [← hhit] at hstarts
      change startsWindow (w.rows key) now = true at hstarts
      cases hrow : w.rows key with
      | none =>
        have hended := h.ended key hrow t ht
        linarith
      | some row =>
        rw [hrow] at hstarts
        obtain ⟨-, s', hs', hends⟩ := h.row key row hrow
        obtain rfl := Option.mem_unique hs' ht
        exact hends ▸ of_decide_eq_true hstarts
    · rw [List.concat_eq_append, ← List.cons_append, ← List.append_assoc] at heq
      exact h.restarted before e after (List.append_inj' heq rfl).1 hstarts t ht
  · rcases Table.get?_modify_cases hcall hj with ⟨-, heq⟩ | ⟨-, hj⟩
    · cases heq
    · exact h.read j key' amount' now' hj
  · rcases Table.get?_modify_cases hcall hj with ⟨rfl, heq⟩ | ⟨-, hj⟩
    · cases heq
      exact ⟨hnow, hit, List.mem_append_right _ List.mem_cons_self, hhit ▸ rfl, rfl⟩
    · exact ⟨(h.late j key' now' count hj).1, hlogged (h.late j key' now' count hj).2⟩
  · rcases Table.get?_modify_cases hcall hj with ⟨-, heq⟩ | ⟨-, hj⟩
    · cases heq
    · exact hlogged (h.returned j count hj)
  · obtain ⟨hbefore, hold, ⟨t, ht, hends⟩, hlater⟩ := h.removed r hr
    refine ⟨?_, hold, ⟨t, ?_, hends⟩, fun e he hsame => ?_⟩
    · rw [List.length_append]
      exact hbefore.trans (Nat.le_add_right _ _)
    · rw [List.take_append_of_le_length hbefore]
      exact ht
    · rw [List.drop_append_of_le_length hbefore] at he
      rcases List.mem_append.mp he with he | he
      · exact hlater e he hsame
      · obtain rfl := List.mem_singleton.mp he
        rw [hclock]
        linarith

end Execute

/-! ## A purge -/

theorem LimitInv.purge {w : LimitWorld} (h : LimitInv expiry w) {id : Nat} {key : String} {now : ℚ} {count : Nat}
    (hcall : w.calls.get? id = some (.counted key now count)) {stale : List String}
    (hstale : ∀ key ∈ stale, Stale w.rows now key) :
    LimitInv expiry { (w.goto id (.returned count)) with
      rows := withoutRows w.rows stale, removed := w.removed ++ removals w stale } := by
  obtain ⟨hnow, hlogged⟩ := h.late id key now count hcall
  -- a row that is deleted ended longer than the margin ago
  have hold : ∀ {key row}, key ∈ stale → w.rows key = some row → row.expiresAt + limitPurgeMargin < w.clock := by
    intro key row hkey hrow
    obtain ⟨row', hrow', hlt⟩ := hstale key hkey
    obtain rfl := Option.some.inj (hrow.symm.trans hrow')
    linarith
  have hkept : ∀ {key}, key ∉ stale → withoutRows w.rows stale key = w.rows key := fun hkey => if_neg hkey
  refine ⟨h.counted, h.positive, fun other row hrow => ?_, fun other hnone t ht => ?_, h.restarted,
    fun j key' amount' now' hj => ?_, fun j key' now' count' hj => ?_, fun j count' hj => ?_, fun r hr => ?_⟩
  · by_cases hother : other ∈ stale
    · cases (if_pos hother).symm.trans hrow
    · exact h.row other row ((hkept hother).symm.trans hrow)
  · by_cases hother : other ∈ stale
    · cases hrow : w.rows other with
      | none => exact h.ended other hrow t ht
      | some row =>
        obtain ⟨-, s, hs, hends⟩ := h.row other row hrow
        obtain rfl := Option.mem_unique hs ht
        exact hends ▸ hold hother hrow
    · exact h.ended other ((hkept hother).symm.trans hnone) t ht
  · rcases Table.get?_modify_cases hcall hj with ⟨-, heq⟩ | ⟨-, hj⟩
    · cases heq
    · exact h.read j key' amount' now' hj
  · rcases Table.get?_modify_cases hcall hj with ⟨-, heq⟩ | ⟨-, hj⟩
    · cases heq
    · exact h.late j key' now' count' hj
  · rcases Table.get?_modify_cases hcall hj with ⟨rfl, heq⟩ | ⟨-, hj⟩
    · cases heq
      exact hlogged
    · exact h.returned j count' hj
  · rcases List.mem_append.mp hr with hr | hr
    · exact h.removed r hr
    · obtain ⟨other, hother, hr⟩ := List.mem_filterMap.mp hr
      obtain ⟨row, hrow, rfl⟩ := Option.map_eq_some_iff.mp hr
      obtain ⟨-, s, hs, hends⟩ := h.row other row hrow
      refine ⟨le_rfl, hold hother hrow, ⟨s, ?_, hends⟩, fun e he => ?_⟩
      · change s ∈ openedBy other (w.log.take w.log.length)
        rw [List.take_length]
        exact hs
      · change e ∈ w.log.drop w.log.length at he
        rw [List.drop_length] at he
        cases he

/-! ## A run -/

theorem limitInv_step {w w' : LimitWorld} (h : LimitInv expiry w) (event : LimitEvent)
    (hstep : limitStep hash expiry w event = .ok w') : LimitInv expiry w' := by
  cases event with
  | tick later =>
    obtain ⟨_, hlater, hstep⟩ := bind_eq_ok.mp hstep
    obtain rfl := Except.ok.inj hstep
    exact h.tick (not_lt.mp (refuse_eq_ok.mp hlater))
  | begin key amount =>
    obtain rfl := Except.ok.inj hstep
    exact h.begin (hash key) amount
  | execute id =>
    obtain ⟨phase, hcall, hstep⟩ := bind_eq_ok.mp hstep
    rw [found_eq_ok] at hcall
    cases phase with
    | read key amount now =>
      obtain ⟨-, -, hstep⟩ := bind_eq_ok.mp hstep
      obtain ⟨_, hsoon, hstep⟩ := bind_eq_ok.mp hstep
      obtain rfl := Except.ok.inj hstep
      exact h.execute hcall (not_le.mp (refuse_eq_ok.mp hsoon))
    | counted key now count => cases hstep
    | returned count => cases hstep
  | purge id stale =>
    obtain ⟨phase, hcall, hstep⟩ := bind_eq_ok.mp hstep
    rw [found_eq_ok] at hcall
    cases phase with
    | read key amount now => cases hstep
    | counted key now count =>
      obtain ⟨-, -, hstep⟩ := bind_eq_ok.mp hstep
      obtain ⟨_, hstale, hstep⟩ := bind_eq_ok.mp hstep
      obtain ⟨-, -, hstep⟩ := bind_eq_ok.mp hstep
      obtain rfl := Except.ok.inj hstep
      exact h.purge hcall (Classical.not_not.mp (refuse_eq_ok.mp hstale))
    | returned count => cases hstep

theorem limitInv_run (hash : String → String) (expiry : String → ℚ) (events : List LimitEvent) :
    LimitInv expiry (run (limitStep hash expiry) {} events) :=
  run_invariant (fun _ event _ h hstep => limitInv_step h event hstep) events limitInv_init

/-- What it is for the hits to be counted. -/
structure HitsCounted (expiry : String → ℚ) (w : LimitWorld) : Prop where
  /-- What a call returns is the count of its hit. -/
  returned : ∀ id count, w.calls.get? id = some (.returned count) → ∃ h ∈ w.log, h.call = id ∧ h.count = count
  /-- It is the sum of the hits of the window so far. -/
  counted : Windows.Counted w.log
  /-- A window is started anew only by a hit whose clock is at its end or past it. -/
  restarted : ∀ before h after, w.log = before ++ h :: after → h.starts = true →
    ∀ s ∈ openedBy h.key before, s.clock + expiry h.key ≤ h.clock
  /-- No later hit counts in the window of a row that was deleted. -/
  purged : ∀ r ∈ w.removed, (∃ s ∈ openedBy r.key (w.log.take r.before), r.expiresAt = s.clock + expiry r.key) ∧
    ∀ h ∈ w.log.drop r.before, h.key = r.key → r.expiresAt ≤ h.clock
  admitted : ∀ key limit, ((window key w.log).filter (·.count ≤ limit)).length ≤ limit

/-- **Every hit counts in its window**, and no window admits more hits than its limit. -/
theorem rate_limits_count (hash : String → String) (expiry : String → ℚ) (events : List LimitEvent) :
    HitsCounted expiry (run (limitStep hash expiry) {} events) := by
  have hinv := limitInv_run hash expiry events
  refine ⟨hinv.returned, hinv.counted, hinv.restarted, fun r hr => ?_, hinv.counted.admitted hinv.positive⟩
  obtain ⟨-, -, hends, hlater⟩ := hinv.removed r hr
  exact ⟨hends, hlater⟩

end BetterDecision
