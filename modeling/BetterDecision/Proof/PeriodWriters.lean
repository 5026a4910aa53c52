import BetterDecision.Model.PeriodWriters
import BetterDecision.Proof.BillingClose

/-!
# Which interleavings keep the roster sound

Closers exclude each other: a session that holds a lock holds it on the open row,
and only one does (`WriterInv`). The planner takes no lock, so the roster it read
may be gone when it inserts. `Unraced` is the condition under which that does no
harm: at the insert the planner's own collision test still clears every stub (or
the insert fails as a whole), and at a commit no row has appeared inside the window
being closed. `writers_keep_sound` is that such runs stay sound, and `racedRun` is
one that does not meet the condition.

The delicate point is a stub that straddles the open row: the test never compares a
stub with an open row. It need not, because the open row only moves by a close, and
the row closed then ends the day before the open one starts; a stub around that day
meets it (`PlanInv`).
-/

namespace BetterDecision

open Calendar

/-! ## Stubs -/

theorem stubWindow_eq (c : CycleDay) (base : Int) (i : Nat) :
    stubWindow c base i = (onMonth (monthOf base + i) c.val, onMonth (monthOf base + i + 1) c.val - 1) := by
  unfold stubWindow snapToCycle
  dsimp only
  rw [monthOf_addMonths, monthOf_addMonths, monthOf_onMonth (one_le_cycleDay c)]

/-- A stub starts after the open row it was planned from. -/
theorem lt_stubWindow (c : CycleDay) (base : Int) (i : Nat) : base < (stubWindow c base (i + 1)).1 := by
  have h := onMonth_lt_onMonth (d := dayOf base) (show monthOf base < monthOf base + ((i + 1 : Nat) : Int) by omega)
    (one_le_cycleDay c)
  rw [stubWindow_eq]
  rwa [onMonth_monthOf] at h

theorem stubWindow_ordered (c : CycleDay) (base : Int) (i : Nat) :
    (stubWindow c base i).1 ≤ (stubWindow c base i).2 := by
  have := onMonth_lt_onMonth (d := c.val) (show monthOf base + i < monthOf base + i + 1 by omega)
    (one_le_cycleDay c)
  rw [stubWindow_eq]
  dsimp only
  omega

/-- Later stubs start after earlier ones end. -/
theorem stubWindow_apart (c : CycleDay) (base : Int) {i j : Nat} (h : i < j) :
    (stubWindow c base i).2 < (stubWindow c base j).1 := by
  rw [stubWindow_eq, stubWindow_eq]
  dsimp only
  rcases Nat.lt_or_eq_of_le (Nat.succ_le_of_lt h) with hlt | rfl
  · have := onMonth_lt_onMonth (d := c.val) (show monthOf base + i + 1 < monthOf base + j by omega)
      (one_le_cycleDay c)
    omega
  · push_cast
    rw [← Int.add_assoc]
    omega

/-- A list of windows in order, none empty, none meeting the next. -/
structure Consecutive (stubs : List (Int × Int)) : Prop where
  apart : stubs.Pairwise (fun v w => v.2 < w.1)
  ordered : ∀ w ∈ stubs, w.1 ≤ w.2

theorem planFuturePeriods_consecutive (db : Db) (orgId : Nat) (base : Int) (count : Nat) :
    Consecutive (planFuturePeriods db orgId base count) ∧
      ∀ w ∈ planFuturePeriods db orgId base count, base < w.1 := by
  have hmem : ∀ w ∈ planFuturePeriods db orgId base count,
      ∃ i, w = stubWindow (cycleDayOf db orgId) base (i + 1) := by
    intro w hw
    obtain ⟨i, -, rfl⟩ := List.mem_map.mp (List.mem_of_mem_filter hw)
    exact ⟨i, rfl⟩
  refine ⟨⟨?_, ?_⟩, ?_⟩
  · refine List.Pairwise.filter _ (List.pairwise_map.mpr ?_)
    exact List.pairwise_lt_range.imp fun h => stubWindow_apart _ _ (by omega)
  · intro w hw
    obtain ⟨i, rfl⟩ := hmem w hw
    exact stubWindow_ordered _ _ _
  · intro w hw
    obtain ⟨i, rfl⟩ := hmem w hw
    exact lt_stubWindow _ _ _

/-- A closed row that keeps clear of the others keeps the tiling. -/
theorem Tiled.addPeriod {db : Db} {orgId o : Nat} {op : BillingPeriod} {s e : Int}
    (h : Tiled db orgId o op) (hse : s ≤ e)
    (hfree : ∀ i p, PeriodRow db orgId i p → ¬ Collides s e p) (hopen : e < op.startDate ∨ op.startDate < s) :
    Tiled (addPeriod db { orgId, startDate := s, endDate := some e }) orgId o op := by
  have hrows := fun i p => @periodRow_addPeriod db orgId i { orgId, startDate := s, endDate := some e } p rfl
  have hapart : ∀ i p f, PeriodRow db orgId i p → p.endDate = some f → f < s ∨ e < p.startDate := by
    intro i p f hp hf
    by_contra hcon
    push Not at hcon
    exact hfree i p hp (.inr ⟨f, hf, hcon.2, hcon.1⟩)
  refine ⟨(hrows _ _).mpr (.inl h.row), h.isOpen, ?_, ?_, ?_⟩
  · intro i p hp hne
    rcases (hrows i p).mp hp with hp | ⟨-, rfl⟩
    · exact h.closed i p hp hne
    · exact ⟨e, rfl, hse⟩
  · intro i j p q f g hp hq hij hf hg
    rcases (hrows i p).mp hp with hp | ⟨rfl, rfl⟩
    · rcases (hrows j q).mp hq with hq | ⟨rfl, rfl⟩
      · exact h.apart i j p q f g hp hq hij hf hg
      · obtain rfl := Option.some.inj hg
        exact hapart i p f hp hf
    · obtain rfl := Option.some.inj hf
      rcases (hrows j q).mp hq with hq | ⟨rfl, rfl⟩
      · exact (hapart j q g hq hg).symm
      · exact absurd rfl hij
  · intro i p f hp hf
    rcases (hrows i p).mp hp with hp | ⟨rfl, rfl⟩
    · exact h.clear i p f hp hf
    · obtain rfl := Option.some.inj hf
      exact hopen

/-- Inserting stubs loses no row, and refuses if one of their starts is taken. -/
theorem insertStubs_kept {orgId : Nat} : ∀ (stubs : List (Int × Int)) {db db' : Db},
    insertStubs db orgId stubs = .ok db' →
      (∀ i p, PeriodRow db orgId i p → PeriodRow db' orgId i p) ∧
      (∀ w ∈ stubs, ∀ i p, PeriodRow db orgId i p → p.startDate ≠ w.1)
  | [], db, db', h => by
      obtain rfl : db = db' := by simpa [insertStubs, pure_eq_ok] using h
      exact ⟨fun _ _ hp => hp, by simp⟩
  | w :: stubs, db, db', h => by
      unfold insertStubs at h
      rw [List.foldlM_cons, bind_eq_ok] at h
      obtain ⟨m, hm, hrest⟩ := h
      unfold insertPeriod at hm
      split at hm
      · cases hm
      · rename_i hnone
        obtain rfl : addPeriod db { orgId, startDate := w.1, endDate := some w.2 } = m := by
          simpa [Except.map] using hm
        have hgrow : ∀ i p, PeriodRow db orgId i p →
            PeriodRow (addPeriod db { orgId, startDate := w.1, endDate := some w.2 }) orgId i p :=
          fun i p hp => (periodRow_addPeriod rfl).mpr (.inl hp)
        obtain ⟨hkept, hstarts⟩ := insertStubs_kept stubs hrest
        refine ⟨fun i p hp => hkept i p (hgrow i p hp), fun v hv i p hp => ?_⟩
        rcases List.mem_cons.mp hv with rfl | hv
        · exact periodAt_eq_none.mp hnone i p hp
        · exact hstarts v hv i p (hgrow i p hp)

/-- **Stubs that clear the test and the open row keep the tiling.** -/
theorem insertStubs_tiled {orgId o : Nat} {op : BillingPeriod} : ∀ (stubs : List (Int × Int)) {db db' : Db},
    insertStubs db orgId stubs = .ok db' → Tiled db orgId o op → Consecutive stubs →
      (∀ w ∈ stubs, ∀ i p, PeriodRow db orgId i p → ¬ Collides w.1 w.2 p) →
      (∀ w ∈ stubs, w.2 < op.startDate ∨ op.startDate < w.1) → Tiled db' orgId o op
  | [], db, db', h, ht, _, _, _ => by
      obtain rfl : db = db' := by simpa [insertStubs, pure_eq_ok] using h
      exact ht
  | w :: stubs, db, db', h, ht, hc, hfree, hopen => by
      unfold insertStubs at h
      rw [List.foldlM_cons, bind_eq_ok] at h
      obtain ⟨m, hm, hrest⟩ := h
      obtain ⟨hw, hpair⟩ := List.pairwise_cons.mp hc.apart
      have hle := hc.ordered w List.mem_cons_self
      unfold insertPeriod at hm
      split at hm
      · cases hm
      · obtain rfl : addPeriod db { orgId, startDate := w.1, endDate := some w.2 } = m := by
          simpa [Except.map] using hm
        refine insertStubs_tiled stubs hrest
          (ht.addPeriod hle (hfree w List.mem_cons_self) (hopen w List.mem_cons_self))
          ⟨hpair, fun v hv => hc.ordered v (List.mem_cons_of_mem _ hv)⟩ ?_
          (fun v hv => hopen v (List.mem_cons_of_mem _ hv))
        intro v hv i p hp
        rcases (periodRow_addPeriod rfl).mp hp with hp | ⟨-, rfl⟩
        · exact hfree v (List.mem_cons_of_mem _ hv) i p hp
        · -- the stub just inserted ends before `v` starts
          have := hw v hv
          rintro (hs | ⟨e, he, h1, h2⟩)
          · dsimp only at hs
            omega
          · obtain rfl := Option.some.inj he
            omega

/-! ## The invariant -/

/-- Where a plan stands to the open row: still ahead of it, or the open row has moved and
the row closed last ends the day before it. -/
def PlanInv (db : Db) (orgId : Nat) (op : BillingPeriod) (stubs : List (Int × Int)) : Prop :=
  (∀ w ∈ stubs, op.startDate < w.1) ∨ ∃ i p, PeriodRow db orgId i p ∧ p.endDate = some (op.startDate - 1)
    ∧ p.startDate ≤ op.startDate - 1

/-- What a session knows, `op` under `o` being the open row. -/
def SessionInv (db : Db) (orgId o : Nat) (op : BillingPeriod) : Session → Prop
  | .waiting currentId requested retried =>
    ∃ p, PeriodRow db orgId currentId p ∧ (retried = true → p.startDate ≤ requested)
  | .locked currentId current requested resolved _ =>
    currentId = o ∧ current = op ∧ op.startDate ≤ requested ∧ op.startDate ≤ resolved
  | .ready currentId current requested resolved _ existing =>
    currentId = o ∧ current = op ∧ op.startDate ≤ requested ∧ op.startDate ≤ resolved ∧
      ∀ j, existing = some j → ∃ q, PeriodRow db orgId j q ∧ q.startDate = resolved + 1
  | .planned stubs => Consecutive stubs ∧ PlanInv db orgId op stubs
  | .done => True

/-- The roster is tiled around an open row, every session knows what it should, and at most
one holds a lock. -/
structure WriterInv (orgId : Nat) (w : Writers) (o : Nat) (op : BillingPeriod) : Prop where
  tiled : Tiled w.db orgId o op
  sessions : ∀ i s, w.sessions.get? i = some s → SessionInv w.db orgId o op s
  alone : ∀ i j s t, w.sessions.get? i = some s → w.sessions.get? j = some t →
    s.lockedRow.isSome → t.lockedRow.isSome → i = j

/-- A lock is held on the open row. -/
theorem lockedRow_eq {db : Db} {orgId o : Nat} {op : BillingPeriod} {s : Session}
    (h : SessionInv db orgId o op s) (hl : s.lockedRow.isSome) : s.lockedRow = some o := by
  cases s with
  | locked _ _ _ _ _ => exact congrArg some h.1
  | ready _ _ _ _ _ _ => exact congrArg some h.1
  | waiting _ _ _ => cases hl
  | planned _ => cases hl
  | done => cases hl

/-- What a session knows survives new rows. -/
theorem SessionInv.grow {db db' : Db} {orgId o : Nat} {op : BillingPeriod} {s : Session}
    (h : SessionInv db orgId o op s) (hgrow : ∀ i p, PeriodRow db orgId i p → PeriodRow db' orgId i p) :
    SessionInv db' orgId o op s := by
  cases s with
  | waiting currentId requested retried =>
    obtain ⟨p, hp, hle⟩ := h
    exact ⟨p, hgrow _ _ hp, hle⟩
  | locked _ _ _ _ _ => exact h
  | ready _ _ _ _ _ existing =>
    obtain ⟨h1, h2, h3, h4, h5⟩ := h
    refine ⟨h1, h2, h3, h4, fun j hj => ?_⟩
    obtain ⟨q, hq, hs⟩ := h5 j hj
    exact ⟨q, hgrow _ _ hq, hs⟩
  | planned stubs =>
    obtain ⟨hc, hahead | ⟨i, p, hp, he⟩⟩ := h
    · exact ⟨hc, .inl hahead⟩
    · exact ⟨hc, .inr ⟨i, p, hgrow _ _ hp, he⟩⟩
  | done => trivial

/-- What a session without a lock knows survives a close. -/
theorem SessionInv.afterClose {db db' : Db} {orgId o o' : Nat} {op op' : BillingPeriod} {r : Int}
    {s : Session} (h : SessionInv db orgId o op s) (hc : Closed db db' orgId o op r o')
    (hr : op.startDate ≤ r) (hs : op'.startDate = r + 1) (hfree : s.lockedRow.isSome = false) :
    SessionInv db' orgId o' op' s := by
  cases s with
  | waiting currentId requested retried =>
    obtain ⟨p, hp, hle⟩ := h
    obtain ⟨p', hp', he⟩ := hc.kept _ _ hp
    exact ⟨p', hp', fun hret => he ▸ hle hret⟩
  | locked _ _ _ _ _ => cases hfree
  | ready _ _ _ _ _ _ => cases hfree
  | planned stubs =>
    -- the row just closed is the one that ends the day before
    refine ⟨h.1, .inr ⟨o, _, hc.ended, ?_, ?_⟩⟩
    · rw [hs, Int.add_sub_cancel]
    · dsimp only
      omega
  | done => trivial

/-- A step that only moves the session `id`, and gives it no lock somebody else has. -/
theorem WriterInv.goto {orgId o : Nat} {op : BillingPeriod} {w : Writers} {id : Nat} {s : Session}
    (h : WriterInv orgId w o op) (hs : SessionInv w.db orgId o op s)
    (hl : s.lockedRow.isSome → ∀ j t, w.sessions.get? j = some t → t.lockedRow.isSome → j = id) :
    WriterInv orgId (w.goto id s) o op := by
  refine ⟨h.tiled, ?_, ?_⟩
  · intro i t ht
    obtain ⟨t0, ht0, rfl⟩ := Table.get?_modify_eq_some.mp ht
    split
    · exact hs
    · exact h.sessions i t0 ht0
  · intro i j t u ht hu htl hul
    obtain ⟨t0, ht0, rfl⟩ := Table.get?_modify_eq_some.mp ht
    obtain ⟨u0, hu0, rfl⟩ := Table.get?_modify_eq_some.mp hu
    by_cases hi : i = id
    · by_cases hj : j = id
      · rw [hi, hj]
      · rw [if_pos hi] at htl
        rw [if_neg hj] at hul
        exact absurd (hl htl j u0 hu0 hul) hj
    · rw [if_neg hi] at htl
      by_cases hj : j = id
      · rw [if_pos hj] at hul
        exact absurd (hl hul i t0 ht0 htl) hi
      · rw [if_neg hj] at hul
        exact h.alone i j t0 u0 ht0 hu0 htl hul

/-- A step that starts a session without a lock. -/
theorem WriterInv.begin {orgId o : Nat} {op : BillingPeriod} {w : Writers} {s : Session}
    (h : WriterInv orgId w o op) (hs : SessionInv w.db orgId o op s) (hl : s.lockedRow = none) :
    WriterInv orgId (w.begin w.db s) o op := by
  have hget : ∀ i t, (w.sessions.insert s).get? i = some t → t = s ∨ w.sessions.get? i = some t := by
    intro i t ht
    rw [Table.get?_insert] at ht
    split at ht
    · exact .inl (Option.some.inj ht).symm
    · exact .inr ht
  refine ⟨h.tiled, ?_, ?_⟩
  · intro i t ht
    rcases hget i t ht with rfl | ht
    · exact hs
    · exact h.sessions i t ht
  · intro i j t u ht hu htl hul
    rcases hget i t ht with rfl | ht
    · rw [hl] at htl
      cases htl
    · rcases hget j u hu with rfl | hu
      · rw [hl] at hul
        cases hul
      · exact h.alone i j t u ht hu htl hul

/-! ## The condition -/

/-- Nothing has been committed that makes this step's write wrong. An insert is harmless if
one of its starts is taken, because then it fails as a whole, or if the planner's test
still clears every stub. A commit is harmless if it collides, or if no row starts inside
the window it closes. -/
def Unraced (orgId : Nat) (w : Writers) : WriterEvent → Prop
  | .insert id =>
    match w.sessions.get? id with
    | some (.planned stubs) =>
      (∃ s ∈ stubs, ∃ r ∈ periodsOf w.db orgId, r.2.startDate = s.1) ∨
        ∀ s ∈ stubs, ∀ r ∈ periodsOf w.db orgId, ¬ Collides s.1 s.2 r.2
    | _ => True
  | .commit id =>
    match w.sessions.get? id with
    | some (.ready _ current _ resolved _ existing) =>
      (existing = none ∧ ∃ r ∈ periodsOf w.db orgId, r.2.startDate = resolved + 1) ∨
        ∀ r ∈ periodsOf w.db orgId, current.startDate < r.2.startDate → resolved < r.2.startDate
    | _ => True
  | _ => True

instance (orgId : Nat) (w : Writers) (ev : WriterEvent) : Decidable (Unraced orgId w ev) := by
  unfold Unraced
  split
  · split <;> infer_instance
  · split <;> infer_instance
  · infer_instance

/-- The lock step, on a session that waits for it while nobody else holds it. -/
theorem writerInv_lock {orgId o : Nat} {op : BillingPeriod} {w : Writers} {id currentId : Nat}
    {requested : Int} {retried : Bool} (h : WriterInv orgId w o op)
    (hs : w.sessions.get? id = some (.waiting currentId requested retried))
    (hfree : ¬ w.Blocked currentId) :
    WriterInv orgId (w.goto id (lockPeriod w.db orgId currentId requested retried)) o op := by
  obtain ⟨p, hp, hret⟩ := h.sessions id _ hs
  have hdone : WriterInv orgId (w.goto id .done) o op := h.goto trivial fun hl => by cases hl
  unfold lockPeriod
  rw [hp.1]
  dsimp only
  split
  · exact hdone
  · rename_i hopen
    split
    · exact hdone
    · rename_i hval
      -- the row is still open, so it is the open row
      have hid : currentId = o := by
        by_contra hne
        obtain ⟨e, he, -⟩ := h.tiled.closed _ _ hp hne
        rw [he] at hopen
        exact hopen rfl
      subst hid
      obtain rfl := Option.some.inj (h.tiled.row.1.symm.trans hp.1)
      have hle : op.startDate ≤ requested := by
        cases retried with
        | true => exact hret rfl
        | false =>
          by_contra hlt
          exact hval ⟨rfl, by omega⟩
      refine h.goto ⟨rfl, rfl, hle, (resolveCloseDate_spec _ _ hle).1⟩ fun _ j t ht htl => ?_
      exact absurd ⟨(j, t), Table.mem_rows.mpr ht, lockedRow_eq (h.sessions j t ht) htl⟩ hfree

/-- The commit step. The row that was open is closed and its closer done; or the insert
collided and the closer waits for the lock again. -/
theorem writerInv_commit {orgId o : Nat} {op : BillingPeriod} {w w' : Writers} {id currentId : Nat}
    {current : BillingPeriod} {requested resolved : Int} {retried : Bool} {existing : Option Nat}
    (h : WriterInv orgId w o op)
    (hs : w.sessions.get? id = some (.ready currentId current requested resolved retried existing))
    (hg : Unraced orgId w (.commit id)) (hstep : writerStep orgId w (.commit id) = .ok w') :
    ∃ o' op', WriterInv orgId w' o' op' := by
  obtain ⟨rfl, rfl, hreq, hres, hex⟩ := h.sessions id _ hs
  simp only [writerStep, hs] at hstep
  simp only [Unraced, hs] at hg
  have hfree : (existing = none ∧ ∃ i p, PeriodRow w.db orgId i p ∧ p.startDate = resolved + 1) ∨
      ∀ i p, PeriodRow w.db orgId i p → current.startDate < p.startDate → resolved < p.startDate := by
    rcases hg with ⟨hnone, r, hr, hrs⟩ | hall
    · exact .inl ⟨hnone, r.1, r.2, mem_periodsOf.mp hr, hrs⟩
    · exact .inr fun i p hp => hall (i, p) (mem_periodsOf.mpr hp)
  rcases commitClose_spec h.tiled hres hfree hex with ⟨db', o', op', hok, ht, hst, hc⟩ | ⟨herr, -⟩
  · rw [hok] at hstep
    obtain rfl := Except.ok.inj hstep
    refine ⟨o', op', ht, ?_, ?_⟩
    · intro i t hi
      obtain ⟨t0, ht0, rfl⟩ := Table.get?_modify_eq_some.mp hi
      split
      · trivial
      · rename_i hne
        refine (h.sessions i t0 ht0).afterClose hc hres hst ?_
        rcases hl : t0.lockedRow.isSome with _ | _
        · rfl
        · exact absurd (h.alone i id t0 _ ht0 hs hl rfl) hne
    · intro i j t u hi hj htl hul
      obtain ⟨t0, ht0, rfl⟩ := Table.get?_modify_eq_some.mp hi
      obtain ⟨u0, hu0, rfl⟩ := Table.get?_modify_eq_some.mp hj
      split at htl
      · cases htl
      · split at hul
        · cases hul
        · exact h.alone i j t0 u0 ht0 hu0 htl hul
  · rw [herr] at hstep
    obtain rfl := Except.ok.inj hstep
    refine ⟨currentId, current, h.goto ?_ ?_⟩
    · split
      · trivial
      · exact ⟨current, h.tiled.row, fun _ => hreq⟩
    · intro hl
      split at hl <;> cases hl

/-- The insert step. -/
theorem writerInv_insert {orgId o : Nat} {op : BillingPeriod} {w w' : Writers} {id : Nat}
    {stubs : List (Int × Int)} (h : WriterInv orgId w o op)
    (hs : w.sessions.get? id = some (.planned stubs)) (hg : Unraced orgId w (.insert id))
    (hstep : writerStep orgId w (.insert id) = .ok w') : WriterInv orgId w' o op := by
  obtain ⟨hcons, hplan⟩ := h.sessions id _ hs
  simp only [writerStep, hs] at hstep
  simp only [Unraced, hs] at hg
  rcases hins : insertStubs w.db orgId stubs with e | db'
  · rw [hins] at hstep
    obtain rfl := Except.ok.inj hstep
    exact h.goto trivial fun hl => by cases hl
  · rw [hins] at hstep
    obtain rfl := Except.ok.inj hstep
    obtain ⟨hkept, hstarts⟩ := insertStubs_kept stubs hins
    have hclear : ∀ s ∈ stubs, ∀ i p, PeriodRow w.db orgId i p → ¬ Collides s.1 s.2 p := by
      rcases hg with ⟨s, hsm, r, hr, hrs⟩ | hall
      · exact absurd hrs (hstarts s hsm r.1 r.2 (mem_periodsOf.mp hr))
      · exact fun s hsm i p hp => hall s hsm (i, p) (mem_periodsOf.mpr hp)
    have hopen : ∀ s ∈ stubs, s.2 < op.startDate ∨ op.startDate < s.1 := by
      intro s hsm
      rcases hplan with hahead | ⟨i, p, hp, he, hle⟩
      · exact .inr (hahead s hsm)
      · by_contra hcon
        push Not at hcon
        have hne := hstarts s hsm _ _ h.tiled.row
        -- a stub around the open row's start meets the row closed before it
        exact hclear s hsm i p hp (.inr ⟨_, he, by omega, by omega⟩)
    have ht := insertStubs_tiled stubs hins h.tiled hcons hclear hopen
    have hgoto : WriterInv orgId (w.goto id .done) o op := h.goto trivial fun hl => by cases hl
    exact ⟨ht, fun i t hi => (hgoto.sessions i t hi).grow hkept, hgoto.alone⟩

/-- **One step keeps the invariant**, around a new open row if it was a commit. -/
theorem writerInv_step {orgId o : Nat} {op : BillingPeriod} {w w' : Writers} {ev : WriterEvent}
    (h : WriterInv orgId w o op) (hg : Unraced orgId w ev) (hstep : writerStep orgId w ev = .ok w') :
    ∃ o' op', WriterInv orgId w' o' op' := by
  cases ev with
  | close closeDate today =>
    simp only [writerStep, h.tiled.getCurrentPeriod] at hstep
    obtain rfl := Except.ok.inj hstep
    refine ⟨o, op, h.begin ?_ ?_⟩
    · split
      · trivial
      · exact ⟨op, h.tiled.row, fun hret => by cases hret⟩
    · split <;> rfl
  | lock id =>
    simp only [writerStep] at hstep
    split at hstep
    · rename_i currentId requested retried hs
      obtain ⟨_, hfree, hok⟩ := bind_eq_ok.mp hstep
      obtain rfl := Except.ok.inj hok
      exact ⟨o, op, writerInv_lock h hs (refuse_eq_ok.mp hfree)⟩
    · cases hstep
  | lookup id =>
    simp only [writerStep] at hstep
    split at hstep
    · rename_i currentId current requested resolved retried hs
      obtain rfl := Except.ok.inj hstep
      obtain ⟨h1, h2, h3, h4⟩ := h.sessions id _ hs
      refine ⟨o, op, h.goto ⟨h1, h2, h3, h4, ?_⟩ ?_⟩
      · intro j hj
        obtain ⟨⟨i, q⟩, hq, rfl⟩ := Option.map_eq_some_iff.mp hj
        exact ⟨q, periodAt_some hq⟩
      · exact fun _ j t ht htl => h.alone j id t _ ht hs htl rfl
    · cases hstep
  | commit id =>
    rcases hs : w.sessions.get? id with _ | s
    · simp only [writerStep, hs] at hstep
      cases hstep
    · cases s with
      | ready _ _ _ _ _ _ => exact writerInv_commit h hs hg hstep
      | waiting _ _ _ => simp only [writerStep, hs] at hstep; cases hstep
      | locked _ _ _ _ _ => simp only [writerStep, hs] at hstep; cases hstep
      | planned _ => simp only [writerStep, hs] at hstep; cases hstep
      | done => simp only [writerStep, hs] at hstep; cases hstep
  | plan today count =>
    simp only [writerStep, h.tiled.getCurrentPeriod] at hstep
    obtain rfl := Except.ok.inj hstep
    obtain ⟨hcons, hahead⟩ := planFuturePeriods_consecutive w.db orgId op.startDate count
    exact ⟨o, op, h.begin ⟨hcons, .inl hahead⟩ rfl⟩
  | insert id =>
    rcases hs : w.sessions.get? id with _ | s
    · simp only [writerStep, hs] at hstep
      cases hstep
    · cases s with
      | planned _ => exact ⟨o, op, writerInv_insert h hs hg hstep⟩
      | waiting _ _ _ => simp only [writerStep, hs] at hstep; cases hstep
      | locked _ _ _ _ _ => simp only [writerStep, hs] at hstep; cases hstep
      | ready _ _ _ _ _ _ => simp only [writerStep, hs] at hstep; cases hstep
      | done => simp only [writerStep, hs] at hstep; cases hstep

/-- **A run whose every step is unraced keeps the roster sound.** -/
theorem writers_keep_sound {db : Db} {orgId : Nat} (hs : Sound db orgId) (events : List WriterEvent)
    (hg : Guarded (writerStep orgId) (Unraced orgId) { db } events) :
    Sound (run (writerStep orgId) { db } events).db orgId := by
  obtain ⟨o, op, ht⟩ := hs.tiled
  have hinit : WriterInv orgId { db } o op :=
    ⟨ht, fun i s h => by simp at h, fun i j s t h => by simp at h⟩
  obtain ⟨o', op', h⟩ := run_invariant_of_guarded (I := fun w => ∃ o op, WriterInv orgId w o op)
    (fun w ev w' ⟨o, op, h⟩ hg hstep => writerInv_step h hg hstep) events hg ⟨o, op, hinit⟩
  exact h.tiled.sound

/-- An org with the one row of 2024-06-01, open. -/
def juneOrg : Db where
  organizations := Table.empty.insert {}
  billingPeriods := Table.empty.insert { orgId := 1, startDate := 739038 }

/-- A plan overtaken by a close on the cycle boundary: the stub's start is taken and the
insert fails. -/
theorem juneOrg_unraced :
    Sound (run (writerStep 1) { db := juneOrg }
      [.plan 739052 2, .close (some 739067) 739068, .lock 2, .lookup 2, .commit 2, .insert 1]).db 1 :=
  writers_keep_sound (by decide) _ (by decide)

/-- A plan overtaken by a close inside the stub it planned: July 15 is closed on, and the
stub of July goes in across the row that ends that day. -/
theorem juneOrg_raced :
    Sound juneOrg 1 ∧ ¬ Sound (run (writerStep 1) { db := juneOrg }
      [.plan 739052 1, .close (some 739082) 739083, .lock 2, .lookup 2, .commit 2, .insert 1]).db 1 := by
  decide

end BetterDecision
