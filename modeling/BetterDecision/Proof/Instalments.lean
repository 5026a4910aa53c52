import BetterDecision.Proof.LedgerRuns

/-!
# No instalment is spent twice

A template consumes its occurrences one after the other: each spend is dated where the
frontier stood, and moves the frontier past it. So the dates it spent only ever grow, none
is spent without an instalment left, and `occurrences_elapsed` counts the spends and
nothing else: no pause, edit, skip or delete of a row moves it.

This is read off the moves once (`move_instalments`, `move_progressed`). The one move that
may put a frontier back is the re-dating of a whole series, so a run is asked to have none.
-/

namespace BetterDecision

variable {rules : Rules} {db : Db} {b b' b'' : Books} {ε : Effect}

/-! ## What the books keep -/

/-- How often a template has spent. -/
def spentOf (id : Nat) (spends : List Spend) : Int := spends.countP (fun s => s.recurringId == id)

structure Instalments (b : Books) : Prop where
  known : ∀ s ∈ b.spends, s.recurringId < b.templates.next
  ahead : ∀ id r, b.templates.get? id = some r → ∀ d ∈ r.lastSpentDate, d < r.nextDueDate
  last : ∀ id r, b.templates.get? id = some r → ∀ s ∈ b.spends, s.recurringId = id → ∃ d ∈ r.lastSpentDate, s.date ≤ d
  increasing : b.spends.Pairwise (fun s t => s.recurringId = t.recurringId → s.date < t.date)
  affordable : ∀ s ∈ b.spends, ∀ n ∈ s.remaining, 0 < n

/-- From one state of the books to a later one: a template that is in both has elapsed by
what it spent in between, and an id is never given out twice. -/
structure Progressed (b b' : Books) : Prop where
  ids : b.templates.next ≤ b'.templates.next
  stays : ∀ id < b.templates.next, ∀ r', b'.templates.get? id = some r' → ∃ r, b.templates.get? id = some r
  elapsed : ∀ id r r', b.templates.get? id = some r → b'.templates.get? id = some r' →
    r'.occurrencesElapsed - r.occurrencesElapsed = spentOf id b'.spends - spentOf id b.spends

theorem Progressed.refl (b : Books) : Progressed b b := by
  refine ⟨Nat.le_refl _, fun id _ r' hr' => ⟨r', hr'⟩, ?_⟩
  intro id r r' hr hr'
  rw [hr] at hr'
  obtain rfl := Option.some.inj hr'
  omega

theorem Progressed.trans (h : Progressed b b') (k : Progressed b' b'') : Progressed b b'' := by
  refine ⟨Nat.le_trans h.ids k.ids, ?_, ?_⟩
  · intro id hid r'' hr''
    obtain ⟨r', hr'⟩ := k.stays id (Nat.lt_of_lt_of_le hid h.ids) r'' hr''
    exact h.stays id hid r' hr'
  · intro id r r'' hr hr''
    have hid := Table.get?_lt_next hr
    obtain ⟨r', hr'⟩ := k.stays id (Nat.lt_of_lt_of_le hid h.ids) r'' hr''
    have hfirst := h.elapsed id r r' hr hr'
    have hsecond := k.elapsed id r' r'' hr' hr''
    omega

/-! ## Move by move -/

/-- A move that leaves templates and spends alone. -/
theorem Instalments.same (h : Instalments b) (ht : b'.templates = b.templates) (hs : b'.spends = b.spends) :
    Instalments b' := by
  obtain ⟨rows, pairings, templates, spends⟩ := b'
  dsimp only at ht hs
  subst ht hs
  exact ⟨h.known, h.ahead, h.last, h.increasing, h.affordable⟩

/-- **Every move but a re-dating keeps the instalments in order.** -/
theorem move_instalments (hno : ¬ rules.redates) (hm : Move rules b ε b') (h : Instalments b) : Instalments b' := by
  cases hm with
  | post tx unlinked => exact h.same rfl rfl
  | rewrite g keeps fits => exact h.same rfl rfl
  | pair hexp hinc ne uexp uinc legs => exact h.same rfl rfl
  | unpair legs => exact h.same rfl rfl
  | mark htx htarget ne org away single => exact h.same rfl rfl
  | erase ids orphans => exact h.same rfl rfl
  | hire r fresh =>
    refine ⟨fun s hs => Nat.lt_succ_of_lt (h.known s hs), ?_, ?_, h.increasing, h.affordable⟩
    · intro id r' hr'
      rw [Table.get?_insert] at hr'
      split at hr'
      · obtain rfl := Option.some.inj hr'
        exact fresh
      · exact h.ahead id r' hr'
    · intro id r' hr' s hs hid
      -- the id is new, so nothing was spent under it
      have hlt := h.known s hs
      rw [Table.get?_insert, if_neg (by omega)] at hr'
      exact h.last id r' hr' s hs hid
  | amend k f keeps ahead =>
    refine ⟨h.known, ?_, ?_, h.increasing, h.affordable⟩
    · intro id r' hr' d hd
      obtain ⟨r, hr, rfl⟩ := Table.get?_modify_eq_some.mp hr'
      by_cases hid : id = k
      · subst hid
        rw [if_pos rfl] at hd ⊢
        rw [(keeps r hr).2] at hd
        exact ahead r hr (h.ahead id r hr) d hd
      · rw [if_neg hid] at hd ⊢
        exact h.ahead id r hr d hd
    · intro id r' hr' s hs hsid
      obtain ⟨r, hr, rfl⟩ := Table.get?_modify_eq_some.mp hr'
      obtain ⟨d, hd, hle⟩ := h.last id r hr s hs hsid
      refine ⟨d, ?_, hle⟩
      by_cases hid : id = k
      · subst hid
        rwa [if_pos rfl, (keeps r hr).2]
      · rwa [if_neg hid]
  | @spend k r next hr left forward =>
    have hlater : ∀ s ∈ b.spends, s.recurringId = k → s.date < r.nextDueDate := by
      intro s hs hsid
      obtain ⟨d, hd, hle⟩ := h.last k r hr s hs hsid
      have hdue := h.ahead k r hr d hd
      omega
    refine ⟨?_, ?_, ?_, ?_, ?_⟩
    · intro s hs
      rcases List.mem_append.mp hs with hs | hs
      · exact h.known s hs
      · rw [List.mem_singleton.mp hs]
        have hlt : k < b.templates.next := Table.get?_lt_next hr
        exact hlt
    · intro id r' hr' d hd
      obtain ⟨r₀, hr₀, rfl⟩ := Table.get?_modify_eq_some.mp hr'
      by_cases hid : id = k
      · subst hid
        rw [hr] at hr₀
        obtain rfl := Option.some.inj hr₀
        rw [if_pos rfl] at hd ⊢
        obtain rfl : r.nextDueDate = d := Option.some.inj hd
        exact forward
      · rw [if_neg hid] at hd ⊢
        exact h.ahead id r₀ hr₀ d hd
    · intro id r' hr' s hs hsid
      obtain ⟨r₀, hr₀, rfl⟩ := Table.get?_modify_eq_some.mp hr'
      by_cases hid : id = k
      · -- the last date spent is the one spent now
        subst hid
        rw [hr] at hr₀
        obtain rfl := Option.some.inj hr₀
        rw [if_pos rfl]
        refine ⟨r.nextDueDate, rfl, ?_⟩
        rcases List.mem_append.mp hs with hs | hs
        · exact Int.le_of_lt (hlater s hs hsid)
        · rw [List.mem_singleton.mp hs]
      · rw [if_neg hid]
        rcases List.mem_append.mp hs with hs | hs
        · exact h.last id r₀ hr₀ s hs hsid
        · rw [List.mem_singleton.mp hs] at hsid
          exact absurd hsid.symm hid
    · refine List.pairwise_append.mpr ⟨h.increasing, List.pairwise_singleton _ _, ?_⟩
      intro s hs t ht hst
      obtain rfl := List.mem_singleton.mp ht
      exact hlater s hs hst
    · intro s hs n hn
      rcases List.mem_append.mp hs with hs | hs
      · exact h.affordable s hs n hn
      · obtain rfl := List.mem_singleton.mp hs
        unfold hasRemainingOccurrences at left
        rw [show remainingOccurrences r = some n from hn] at left
        exact of_decide_eq_true left
  | retire doomed =>
    have hwas : ∀ id r, (b.templates.remove doomed).get? id = some r → b.templates.get? id = some r := by
      intro id r hr
      rw [Table.get?_remove] at hr
      split at hr
      · cases hr
      · exact hr
    exact ⟨h.known, fun id r hr => h.ahead id r (hwas id r hr), fun id r hr => h.last id r (hwas id r hr),
      h.increasing, h.affordable⟩
  | redate allowed id f => exact absurd allowed hno

theorem Progressed.same (ht : b'.templates = b.templates) (hs : b'.spends = b.spends) : Progressed b b' := by
  refine ⟨by rw [ht], fun id _ r' hr' => ⟨r', by rw [← ht, hr']⟩, ?_⟩
  intro id r r' hr hr'
  rw [ht, hr] at hr'
  obtain rfl := Option.some.inj hr'
  rw [hs]
  omega

/-- A template rewritten, its count untouched. -/
theorem progressed_modify {k : Nat} {f : RecurringTransaction → RecurringTransaction}
    (hf : ∀ r, b.templates.get? k = some r → (f r).occurrencesElapsed = r.occurrencesElapsed) :
    Progressed b { b with templates := b.templates.modify k f } := by
  refine ⟨Nat.le_refl _, ?_, ?_⟩
  · intro id _ r' hr'
    obtain ⟨r, hr, -⟩ := Table.get?_modify_eq_some.mp hr'
    exact ⟨r, hr⟩
  · intro id r r' hr hr'
    obtain ⟨r₀, hr₀, rfl⟩ := Table.get?_modify_eq_some.mp hr'
    rw [hr] at hr₀
    obtain rfl := Option.some.inj hr₀
    by_cases hid : id = k
    · subst hid
      rw [if_pos rfl, hf r hr]
      dsimp only
      omega
    · rw [if_neg hid]
      dsimp only
      omega

/-- **A template elapses by what it spends.** -/
theorem move_progressed (hno : ¬ rules.redates) (hm : Move rules b ε b') : Progressed b b' := by
  cases hm with
  | post tx unlinked => exact .same rfl rfl
  | rewrite g keeps fits => exact .same rfl rfl
  | pair hexp hinc ne uexp uinc legs => exact .same rfl rfl
  | unpair legs => exact .same rfl rfl
  | mark htx htarget ne org away single => exact .same rfl rfl
  | erase ids orphans => exact .same rfl rfl
  | hire r fresh =>
    refine ⟨Nat.le_succ _, ?_, ?_⟩
    · intro id hid r' hr'
      rw [Table.get?_insert, if_neg (by omega)] at hr'
      exact ⟨r', hr'⟩
    · intro id r₀ r' hr₀ hr'
      rw [Table.get?_insert_of_some hr₀] at hr'
      obtain rfl := Option.some.inj hr'
      dsimp only
      omega
  | amend k f keeps ahead => exact progressed_modify fun r hr => (keeps r hr).1
  | @spend k r next hr left forward =>
    refine ⟨Nat.le_refl _, ?_, ?_⟩
    · intro id _ r' hr'
      obtain ⟨r₀, hr₀, -⟩ := Table.get?_modify_eq_some.mp hr'
      exact ⟨r₀, hr₀⟩
    · intro id r₀ r' hr₀ hr'
      obtain ⟨r₁, hr₁, rfl⟩ := Table.get?_modify_eq_some.mp hr'
      rw [hr₀] at hr₁
      obtain rfl := Option.some.inj hr₁
      unfold spentOf
      rw [List.countP_append]
      by_cases hid : id = k
      · subst hid
        rw [if_pos rfl]
        have hone : [({ recurringId := id, date := r.nextDueDate, remaining := remainingOccurrences r } : Spend)].countP
            (fun s => s.recurringId == id) = 1 := by simp
        rw [hone]
        unfold spent
        dsimp only
        omega
      · have hzero : [({ recurringId := k, date := r.nextDueDate, remaining := remainingOccurrences r } : Spend)].countP
            (fun s => s.recurringId == id) = 0 := by simp [Ne.symm hid]
        rw [if_neg hid, hzero]
        omega
  | retire doomed =>
    have hwas : ∀ id r, (b.templates.remove doomed).get? id = some r → b.templates.get? id = some r := by
      intro id r hr
      rw [Table.get?_remove] at hr
      split at hr
      · cases hr
      · exact hr
    refine ⟨Nat.le_refl _, fun id _ r' hr' => ⟨r', hwas id r' hr'⟩, ?_⟩
    intro id r r' hr hr'
    rw [hwas id r' hr'] at hr
    obtain rfl := Option.some.inj hr
    dsimp only
    omega
  | redate allowed id f => exact absurd allowed hno

/-! ## Runs -/

/-- The call moves the dates of a series as a whole. -/
def MovesSeries : Call → Prop
  | .updateTransaction _ _ _ body => body.seriesScope = some .future ∧ body.date.isSome
  | _ => False

theorem admits_of_still {currency : Nat → Option String} {call : Call} (h : ¬ MovesSeries call) :
    Admits ⟨currency, False, False⟩ call := by
  cases call with
  | updateTransaction today orgId id body => exact fun hscope hdate => h ⟨hscope, hdate⟩
  | updateRecurring today orgId recurringId body => exact fun h => h.elim
  | _ => trivial

theorem after_progressed {calls : List Call} (hi : InOrder ⟨currencyOf db, False, False⟩ db)
    (hstill : ∀ call ∈ calls, ¬ MovesSeries call) :
    InOrder ⟨currencyOf db, False, False⟩ (after db calls) ∧ Progressed db.books (after db calls).books := by
  refine after_invariant (I := fun d => Progressed db.books d.books) (fun call hc => admits_of_still (hstill call hc)) ?_
    hi (.refl _)
  intro d call d' _ _ _ hkept hprogress
  obtain ⟨ε, htrail, -⟩ := hkept.moved
  exact hprogress.trans (htrail.relation Progressed.refl (fun _ _ _ => Progressed.trans) (I := fun _ => True)
    (fun _ _ _ _ _ => trivial) (fun _ _ _ _ hm => move_progressed (fun h => h) hm) trivial)

/-- **No instalment is spent twice**, in any run that moves no series as a whole: the dates
a template spent grow strictly and lie before its frontier, each was spent with an
instalment left, and `occurrences_elapsed` grows by exactly the spends between any two
states of the run. -/
theorem instalments_spent_once (calls : List Call) (hi : InOrder ⟨currencyOf db, False, False⟩ db)
    (hinstalments : Instalments db.books) (hstill : ∀ call ∈ calls, ¬ MovesSeries call) :
    Instalments (after db calls).books ∧
      ∀ before rest, calls = before ++ rest → Progressed (after db before).books (after db calls).books := by
  constructor
  · refine (after_invariant (I := fun d => Instalments d.books) (fun call hc => admits_of_still (hstill call hc)) ?_
      hi hinstalments).2
    intro d call d' _ _ _ hkept hd
    obtain ⟨ε, htrail, -⟩ := hkept.moved
    exact htrail.invariant (fun _ _ _ h hm => move_instalments (fun h => h) hm h) hd
  · intro before rest hcalls
    have hbefore : ∀ call ∈ before, ¬ MovesSeries call := by
      intro call hc
      exact hstill call (hcalls ▸ List.mem_append_left _ hc)
    have hrest : ∀ call ∈ rest, ¬ MovesSeries call := by
      intro call hc
      exact hstill call (hcalls ▸ List.mem_append_right _ hc)
    obtain ⟨hmid, -⟩ := after_progressed hi hbefore
    have hsplit : after db calls = after (after db before) rest := by rw [hcalls, after, run_append]
    rw [hsplit]
    have hmid' : InOrder ⟨currencyOf (after db before), False, False⟩ (after db before) := by
      rw [hmid.currency]
      exact hmid
    exact (after_progressed hmid' hrest).2

/-- A monthly series with two instalments left. -/
def twoInstalments : Db :=
  { openedLedger with
    organizations := Table.empty.insert {}
    recurring := Table.empty.insert
      { orgId := 1, accountId := 1, categoryId := 1, description := "Gym", amount := ⟨2500, moved_amount_pos⟩
        type := .expense, frequency := .monthly, nextDueDate := 738000, occurrenceCount := some 2 } }

theorem instalments_spent_once_two :
    Instalments (after twoInstalments [.generateDueTransactions 738010 1, .generateDueTransactions 738040 1]).books := by
  refine (instalments_spent_once _ (inOrder_of_no_rows False False rfl) ?_ ?_).1
  · refine ⟨?_, ?_, ?_, List.Pairwise.nil, ?_⟩
    · intro s hs
      cases hs
    · intro id r hr d hd
      have hmem : (id, r) ∈ twoInstalments.recurring.rows := Table.mem_rows.mpr hr
      rw [(Prod.mk.inj (List.mem_singleton.mp hmem)).2] at hd
      cases hd
    · intro id r hr s hs
      cases hs
    · intro s hs
      cases hs
  · intro call hcall
    simp only [List.mem_cons, List.not_mem_nil, or_false] at hcall
    rcases hcall with rfl | rfl <;> exact fun h => h

end BetterDecision
