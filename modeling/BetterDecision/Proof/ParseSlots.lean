import BetterDecision.Model.ParseSlots

/-!
# Parse slots are given back

A step moves one call from one place to another, and the two counters by the difference of
what the call has there. So the free permits and those of the calls make up the semaphore, and
an organization's count is that of its reservations, whatever comes in between.
-/

namespace BetterDecision

/-- A permit or none. -/
def SlotPhase.permits (p : SlotPhase) : Int := if p.hasPermit then 1 else 0

/-- A slot of an organization or none. -/
def reservedFor (reservation : Option Nat) (orgId : Nat) : Int := if reservation == some orgId then 1 else 0

/-- How many reservations of an organization there are. -/
def SlotWorld.reserved (w : SlotWorld) (orgId : Nat) : Int :=
  w.calls.total fun _ p => reservedFor p.reservation orgId

theorem reserved_eq (w : SlotWorld) (orgId : Nat) : w.reserved orgId = w.reservations orgId :=
  (Table.length_select w.calls _).symm

/-! ## The counts -/

/-- The entry of an organization with so many reservations. -/
def countEntry (n : Int) : Option Int := if n ≤ 0 then none else some n

theorem getD_countEntry {n : Int} (h : 0 ≤ n) : (countEntry n).getD 0 = n := by
  unfold countEntry
  split
  · exact le_antisymm h ‹_›
  · rfl

/-- How the counts go with a call that had one reservation and has another. -/
inductive Recount (counts : Nat → Option Int) : Option Nat → Option Nat → (Nat → Option Int) → Prop
  | same (reservation : Option Nat) : Recount counts reservation reservation counts
  | reserve (orgId : Nat) : Recount counts none (some orgId) (countIn counts orgId)
  | release (orgId : Nat) : Recount counts (some orgId) none (countOut counts orgId)
  /-- There was no permit at once. -/
  | busy (orgId : Nat) : Recount counts none none (countOut (countIn counts orgId) orgId)

section Counts

variable {counts : Nat → Option Int} {n : Nat → Int}

theorem countIn_entry (hn : ∀ orgId, 0 ≤ n orgId) (h : ∀ orgId, counts orgId = countEntry (n orgId))
    (orgId other : Nat) : countIn counts orgId other = countEntry (n other + reservedFor (some orgId) other) := by
  by_cases hother : other = orgId
  · subst hother
    have hpos := hn other
    rw [countIn, Function.update_self, h, getD_countEntry hpos, reservedFor, if_pos (beq_self_eq_true _),
      countEntry, if_neg (by omega)]
  · rw [countIn, Function.update_of_ne hother, h, reservedFor, if_neg (by simpa using Ne.symm hother), add_zero]

theorem countOut_entry (hn : ∀ orgId, 0 ≤ n orgId) (h : ∀ orgId, counts orgId = countEntry (n orgId))
    (orgId other : Nat) : countOut counts orgId other = countEntry (n other - reservedFor (some orgId) other) := by
  by_cases hother : other = orgId
  · subst hother
    rw [countOut, Function.update_self, h, getD_countEntry (hn other), reservedFor, if_pos (beq_self_eq_true _),
      countEntry]
  · rw [countOut, Function.update_of_ne hother, h, reservedFor, if_neg (by simpa using Ne.symm hother), sub_zero]

theorem reservedFor_none (orgId : Nat) : reservedFor none orgId = 0 := rfl

theorem reservedFor_nonneg (reservation : Option Nat) (orgId : Nat) : 0 ≤ reservedFor reservation orgId := by
  unfold reservedFor
  split <;> omega

/-- **The counts keep being the numbers of reservations.** -/
theorem Recount.entry {before after : Option Nat} {counts' : Nat → Option Int} (hr : Recount counts before after counts')
    (hn : ∀ orgId, 0 ≤ n orgId) (h : ∀ orgId, counts orgId = countEntry (n orgId)) (orgId : Nat) :
    counts' orgId = countEntry (n orgId + (reservedFor after orgId - reservedFor before orgId)) := by
  cases hr with
  | same => rw [sub_self, add_zero, h]
  | reserve org => rw [countIn_entry hn h, reservedFor_none, sub_zero]
  | release org =>
    rw [countOut_entry hn h, reservedFor_none]
    congr 1
    omega
  | busy org =>
    have hin : ∀ o, 0 ≤ n o + reservedFor (some org) o := fun o => add_nonneg (hn o) (reservedFor_nonneg _ _)
    rw [countOut_entry hin (countIn_entry hn h org), add_sub_cancel_right, sub_self, add_zero]

end Counts

theorem permits_nonneg (p : SlotPhase) : 0 ≤ p.permits := by
  unfold SlotPhase.permits
  split <;> omega

/-! ## What a step can do -/

/-- A call comes, or one goes on. -/
inductive SlotMove (x : ParseExecutor) (w : SlotWorld) : SlotWorld → Prop
  | call (orgId : Nat) : SlotMove x w { w with calls := w.calls.insert (.entering orgId) }
  | move (id : Nat) (p q : SlotPhase) (free : Int) (counts : Nat → Option Int) : w.calls.get? id = some p →
      free + q.permits = w.free + p.permits → (0 ≤ w.free → 0 ≤ free) →
      Recount w.orgCounts p.reservation q.reservation counts →
      -- a reservation is new only below the cap
      (0 < x.maxPerOrg → ∀ orgId ∈ q.reservation, p.reservation ≠ some orgId →
        (w.orgCounts orgId).getD 0 < x.maxPerOrg) →
      SlotMove x w { free, orgCounts := counts, calls := w.calls.modify id (fun _ => q) }

section Moves

variable {x : ParseExecutor} {w : SlotWorld} {id orgId : Nat}

/-- A call that is over gives back what it has. -/
theorem slotMove_finish {p : SlotPhase} {free : Int} (hget : w.calls.get? id = some p) (hp : p.reservation = some orgId)
    (hfree : free = w.free + p.permits) :
    SlotMove x w { free, orgCounts := countOut w.orgCounts orgId, calls := w.calls.modify id (fun _ => .ended orgId) } := by
  have hrecount : Recount w.orgCounts p.reservation (SlotPhase.ended orgId).reservation (countOut w.orgCounts orgId) :=
    hp ▸ .release orgId
  refine .move id p (.ended orgId) free _ hget ?_ (fun h => ?_) hrecount (fun _ _ h => nomatch h)
  · exact (add_zero free).trans hfree
  · rw [hfree]
    exact add_nonneg h (permits_nonneg p)

/-- A call that has nothing may end. -/
theorem slotMove_pass (hget : w.calls.get? id = some (.entering orgId)) : SlotMove x w (w.goto id (.ended orgId)) :=
  .move id _ (.ended orgId) w.free _ hget rfl (fun h => h) (.same none) (fun _ _ h => nomatch h)

theorem slotMove_reserve (hget : w.calls.get? id = some (.entering orgId)) : SlotMove x w (w.reserve x id orgId) := by
  unfold SlotWorld.reserve
  split
  · -- refused at the cap
    exact slotMove_pass hget
  · rename_i hcap
    have hbelow : 0 < x.maxPerOrg → ∀ org ∈ some orgId, none ≠ some org → (w.orgCounts org).getD 0 < x.maxPerOrg := by
      intro hpos org horg _
      cases horg
      exact lt_of_not_ge fun h => hcap ⟨hpos, h⟩
    dsimp only
    split
    · exact .move id _ (.waiting orgId) w.free _ hget rfl (fun h => h) (.reserve orgId) hbelow
    · split
      · exact .move id _ (.ended orgId) w.free _ hget rfl (fun h => h) (.busy orgId) (fun _ _ h => nomatch h)
      · rename_i hfree
        refine .move id _ (.body orgId) (w.free - 1) _ hget ?_ (fun h => ?_) (.reserve orgId) hbelow
        · exact (sub_add_cancel w.free 1).trans (add_zero w.free).symm
        · have hfree : w.free ≠ 0 := hfree
          omega

/-- Every step is such a move. -/
theorem slotMove_of_step {w' : SlotWorld} {event : SlotEvent} (h : slotStep x w event = .ok w') : SlotMove x w w' := by
  cases event with
  | call orgId =>
    obtain rfl := Except.ok.inj h
    exact .call orgId
  | reserve id =>
    obtain ⟨phase, hget, h⟩ := bind_eq_ok.mp h
    rw [found_eq_ok] at hget
    cases phase with
    | entering orgId =>
      obtain rfl := Except.ok.inj h
      exact slotMove_reserve hget
    | _ => cases h
  | hand id =>
    obtain ⟨phase, hget, h⟩ := bind_eq_ok.mp h
    rw [found_eq_ok] at hget
    cases phase with
    | waiting orgId =>
      obtain ⟨_, hfree, h⟩ := bind_eq_ok.mp h
      rw [refuse_eq_ok] at hfree
      obtain rfl := Except.ok.inj h
      refine .move id _ (.handed orgId) (w.free - 1) _ hget ?_ (fun _ => ?_) (.same _) (fun _ _ h hne => absurd h hne)
      · exact (sub_add_cancel w.free 1).trans (add_zero w.free).symm
      · omega
    | _ => cases h
  | resume id =>
    obtain ⟨phase, hget, h⟩ := bind_eq_ok.mp h
    rw [found_eq_ok] at hget
    cases phase with
    | handed orgId =>
      obtain rfl := Except.ok.inj h
      exact .move id _ (.body orgId) w.free _ hget rfl (fun h => h) (.same _) (fun _ _ h hne => absurd h hne)
    | _ => cases h
  | timeout id =>
    obtain ⟨phase, hget, h⟩ := bind_eq_ok.mp h
    rw [found_eq_ok] at hget
    cases phase with
    | waiting orgId =>
      obtain rfl := Except.ok.inj h
      exact slotMove_finish hget rfl (add_zero w.free).symm
    | handed orgId =>
      obtain rfl := Except.ok.inj h
      exact slotMove_finish hget rfl rfl
    | _ => cases h
  | cancel id =>
    obtain ⟨phase, hget, h⟩ := bind_eq_ok.mp h
    rw [found_eq_ok] at hget
    cases phase with
    | entering orgId =>
      obtain rfl := Except.ok.inj h
      exact slotMove_pass hget
    | waiting orgId =>
      obtain rfl := Except.ok.inj h
      exact slotMove_finish hget rfl (add_zero w.free).symm
    | handed orgId | body orgId =>
      obtain rfl := Except.ok.inj h
      exact slotMove_finish hget rfl rfl
    | ended orgId => cases h
  | leave id =>
    obtain ⟨phase, hget, h⟩ := bind_eq_ok.mp h
    rw [found_eq_ok] at hget
    cases phase with
    | body orgId =>
      obtain rfl := Except.ok.inj h
      exact slotMove_finish hget rfl rfl
    | _ => cases h

end Moves

/-! ## Nothing is lost -/

/-- The permits are all there, and the counts are those of the reservations. -/
structure SlotsKept (x : ParseExecutor) (w : SlotWorld) : Prop where
  permits : w.free + w.calls.total (fun _ p => p.permits) = x.permits
  free : 0 ≤ w.free
  counts : ∀ orgId, w.orgCounts orgId = countEntry (w.reserved orgId)
  capped : 0 < x.maxPerOrg → ∀ orgId, w.reserved orgId ≤ x.maxPerOrg

theorem reserved_nonneg (w : SlotWorld) (orgId : Nat) : 0 ≤ w.reserved orgId := Table.total_ite_nonneg w.calls _

theorem SlotsKept.move {x : ParseExecutor} {w w' : SlotWorld} (h : SlotsKept x w) (hmove : SlotMove x w w') :
    SlotsKept x w' := by
  cases hmove with
  | call orgId =>
    have hreserved : ∀ org, SlotWorld.reserved { w with calls := w.calls.insert (.entering orgId) } org = w.reserved org :=
      fun org => (Table.total_insert ..).trans (add_zero _)
    refine ⟨?_, h.free, fun org => ?_, fun hpos org => ?_⟩
    · rw [Table.total_insert]
      exact (congrArg (w.free + ·) (add_zero _)).trans h.permits
    · rw [hreserved]
      exact h.counts org
    · rw [hreserved]
      exact h.capped hpos org
  | move id p q free counts hget hfree hpos hrecount hcap =>
    -- the one row that moves moves each total by what it has more
    have hreserved : ∀ org, SlotWorld.reserved { free, orgCounts := counts, calls := w.calls.modify id (fun _ => q) } org =
        w.reserved org + (reservedFor q.reservation org - reservedFor p.reservation org) :=
      fun org => Table.total_modify hget (fun _ => q) (fun _ p => reservedFor p.reservation org)
    refine ⟨?_, hpos h.free, fun org => ?_, fun hpos org => ?_⟩
    · have hpermits := h.permits
      dsimp only
      rw [Table.total_modify hget]
      omega
    · rw [hreserved]
      exact hrecount.entry (reserved_nonneg w) h.counts org
    · rw [hreserved]
      have hnow := h.capped hpos org
      by_cases hq : q.reservation = some org
      · have hone : reservedFor q.reservation org = 1 := if_pos (beq_iff_eq.mpr hq)
        by_cases hp : p.reservation = some org
        · have hone' : reservedFor p.reservation org = 1 := if_pos (beq_iff_eq.mpr hp)
          omega
        · have hbelow := hcap hpos org hq hp
          rw [h.counts, getD_countEntry (reserved_nonneg w org)] at hbelow
          have hpast := reservedFor_nonneg p.reservation org
          omega
      · have hzero : reservedFor q.reservation org = 0 := if_neg (by simpa using hq)
        have hpast := reservedFor_nonneg p.reservation org
        omega

theorem slotsKept_run (x : ParseExecutor) (events : List SlotEvent) :
    SlotsKept x (run (slotStep x) (.ensured x) events) := by
  refine run_invariant (fun _ event _ h hstep => SlotsKept.move h (slotMove_of_step hstep)) events ?_
  exact ⟨add_zero _, le_trans Int.one_nonneg (le_max_left ..), fun _ => rfl, fun hpos _ => hpos.le⟩

/-- **No parse slot is leaked or granted twice**, whatever calls, timeouts and cancellations
come in between: the bodies are at most as many as the permits, the reservations of an
organization at most as many as its cap if there is one, its entry is their number, and when
no slot is held or awaited the semaphore is full and no entry is left. -/
theorem parse_slots_kept (x : ParseExecutor) (events : List SlotEvent) :
    let w := run (slotStep x) (.ensured x) events
    (w.bodies : Int) ≤ max 1 x.maxConcurrent ∧
    (0 < x.maxPerOrg → ∀ orgId, (w.reservations orgId : Int) ≤ x.maxPerOrg) ∧
    (∀ orgId, w.orgCounts orgId = if w.reservations orgId = 0 then none else some (w.reservations orgId : Int)) ∧
    ((∀ id phase, w.calls.get? id = some phase → phase.reservation = none) →
      w.free = max 1 x.maxConcurrent ∧ ∀ orgId, w.orgCounts orgId = none) := by
  intro w
  have hkept : SlotsKept x w := slotsKept_run x events
  refine ⟨?_, fun hpos orgId => ?_, fun orgId => ?_, fun hidle => ?_⟩
  · have hbodies : w.bodies ≤ (w.calls.select fun _ p => p.hasPermit).length :=
      Table.length_select_mono fun _ p _ hbody => by cases p <;> first | rfl | cases hbody
    have hheld := Table.length_select w.calls (fun _ p => p.hasPermit)
    have hpermits : w.free + w.calls.total (fun _ p => if p.hasPermit then 1 else 0) = max 1 x.maxConcurrent := hkept.permits
    have hfree := hkept.free
    omega
  · rw [← reserved_eq]
    exact hkept.capped hpos orgId
  · rw [hkept.counts, reserved_eq, countEntry]
    split <;> split <;> first | rfl | omega
  · have hnone : ∀ orgId, w.reserved orgId = 0 := fun orgId =>
      (Table.total_congr fun id p hget => by rw [hidle id p hget]; rfl).trans (Table.total_zero w.calls)
    have hpermits : w.calls.total (fun _ p => p.permits) = 0 :=
      (Table.total_congr fun id p hget => by cases p <;> first | rfl | cases hidle id _ hget).trans
        (Table.total_zero w.calls)
    refine ⟨?_, fun orgId => ?_⟩
    · have hall := hkept.permits
      rw [hpermits, add_zero] at hall
      exact hall
    · rw [hkept.counts, hnone]
      rfl

/-- With no body allowed one runs all the same, and no cap is none at all. -/
theorem parse_caps_of_zero :
    ¬ (((run (slotStep ⟨0, 2, 5⟩) (.ensured ⟨0, 2, 5⟩) [.call 7, .reserve 1, .hand 1, .resume 1]).bodies : Int) ≤ 0) ∧
    ¬ (((run (slotStep ⟨4, 0, 5⟩) (.ensured ⟨4, 0, 5⟩) [.call 7, .reserve 1]).reservations 7 : Int) ≤ 0) := by
  decide +kernel

end BetterDecision
