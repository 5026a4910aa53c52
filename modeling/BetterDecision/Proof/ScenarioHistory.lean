import BetterDecision.Model.ScenarioHistory

/-!
# What the history counts

A transfer is two rows of type income and expense that are linked, so the type the query tests
excludes none. Nor does the query read the status, the link or the reconciliation state. The
history is that of the real cash flow where the rest comes to nothing, account by account and
month by month.
-/

namespace BetterDecision

/-- Money that came in or went out: settled, and reportable by the rule of the other reports. -/
def isCashflow (row : Row) : Bool := row.2.status == .settled && reportableTransactionFilter row

/-- The history of the rows that are cash flow. -/
def cashflowHistory (db : Db) (today : Int) (orgId : Nat) : Result (List MonthlyCashflowPoint) := do
  let first := startOfHorizon today
  let historyStart ← plusMonths first (-12)
  .ok (monthlyNet ((windowRows db orgId historyStart first).filter isCashflow))

/-- The rows of the window that are no cash flow come to nothing in each month of each account, and
come beside one that is. -/
def OthersCancel (rows : List Row) : Prop :=
  ∀ k, sumAt cashflowKey (fun row => cashflowSign row.2) (rows.filter (fun row => !isCashflow row)) k = 0 ∧
    (k ∈ rows.map cashflowKey → k ∈ (rows.filter isCashflow).map cashflowKey)

theorem decimal_injective : Function.Injective decimal := by
  intro m n h
  unfold decimal at h
  have hcast : (m : ℚ) = n := by linarith
  exact_mod_cast hcast

/-- Points are listed by account and month, so they are the same list as soon as they are the same groups. -/
theorem monthlyNet_eq_iff {rows rows' : List Row} :
    monthlyNet rows = monthlyNet rows' ↔
      (groupSum cashflowKey (fun row => cashflowSign row.2) rows).Perm
        (groupSum cashflowKey (fun row => cashflowSign row.2) rows') := by
  let before (p q : (Nat × Int) × Int) : Prop := toLex p.1 ≤ toLex q.1
  have : Std.Total before := ⟨fun p q => le_total (toLex p.1) (toLex q.1)⟩
  have : IsTrans _ before := ⟨fun p q r => le_trans (a := toLex p.1)⟩
  unfold monthlyNet
  have hpoint : Function.Injective (fun p : (Nat × Int) × Int => MonthlyCashflowPoint.mk p.1.1 p.1.2 (decimal p.2)) := by
    rintro ⟨⟨a, m⟩, v⟩ ⟨⟨a', m'⟩, v'⟩ h
    obtain ⟨rfl, rfl, hv⟩ := MonthlyCashflowPoint.mk.inj h
    have hv : v = v' := decimal_injective hv
    rw [hv]
  rw [hpoint.list_map.eq_iff]
  constructor
  · intro h
    have hperm := List.perm_insertionSort before (groupSum cashflowKey (fun row => cashflowSign row.2) rows)
    have hperm' := List.perm_insertionSort before (groupSum cashflowKey (fun row => cashflowSign row.2) rows')
    rw [← h] at hperm'
    exact hperm.symm.trans hperm'
  · intro hperm
    refine List.Perm.eq_of_pairwise (fun p q hp hq hle hge => ?_) (List.pairwise_insertionSort before _)
      (List.pairwise_insertionSort before _)
      (((List.perm_insertionSort _ _).trans hperm).trans (List.perm_insertionSort _ _).symm)
    have hp := (List.perm_insertionSort before _).mem_iff.mp hp
    have hq := hperm.mem_iff.mpr ((List.perm_insertionSort before _).mem_iff.mp hq)
    have hkey : p.1 = q.1 := toLex.injective (le_antisymm hle hge)
    exact List.inj_on_of_nodup_map nodup_keys_groupSum hp hq hkey

/-- **The history is the real cash flow iff the other rows it reads come to nothing.** -/
theorem history_is_cashflow_iff (db : Db) (today : Int) (orgId : Nat) :
    buildHistory db today orgId = cashflowHistory db today orgId ↔
      ∀ historyStart, plusMonths (startOfHorizon today) (-12) = .ok historyStart →
        OthersCancel (windowRows db orgId historyStart (startOfHorizon today)) := by
  unfold buildHistory cashflowHistory
  dsimp only
  rcases plusMonths (startOfHorizon today) (-12) with e | historyStart
  · refine iff_of_true rfl fun historyStart h => ?_
    cases h
  · rw [bind_ok, bind_ok, Except.ok.injEq, monthlyNet_eq_iff, groupSum_filter_perm_iff]
    constructor
    · intro h historyStart' hstart
      obtain rfl := Except.ok.inj hstart
      exact h
    · intro h
      exact h historyStart rfl

/-- Two accounts, and 100.00 moved from the one to the other on 15 May 2026. -/
def movedInMay : Db where
  organizations := Table.empty.insert {}
  accounts := (Table.empty.insert { orgId := 1, name := "Current" }).insert { orgId := 1, name := "Savings" }
  transactions :=
    (Table.empty.insert
      { orgId := 1, accountId := 1, categoryId := 1, description := "To savings", amount := ⟨10000, by decide⟩
        type := .expense, linkedTransactionId := some 2, date := 739751, settledDate := some 739751 }).insert
      { orgId := 1, accountId := 2, categoryId := 1, description := "To savings", amount := ⟨10000, by decide⟩
        type := .income, linkedTransactionId := some 1, date := 739751, settledDate := some 739751 }

/-- In June the history has money spent on the one and earned on the other. -/
theorem transfer_in_history :
    buildHistory movedInMay 739780 1 = .ok [⟨1, 24316, -100⟩, ⟨2, 24316, 100⟩] ∧
      cashflowHistory movedInMay 739780 1 = .ok [] := by
  decide +kernel

end BetterDecision
