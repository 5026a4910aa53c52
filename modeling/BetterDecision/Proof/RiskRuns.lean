import BetterDecision.Model.RiskRuns
import Mathlib.Data.List.Forall2
import Mathlib.Data.List.Induction

/-!
# A run is a maximal stretch below zero

The pass is that of `Blocks`, over the balances rounded to cents: it comes to one run for
each block of points below the threshold, and a run has the first and the last day of its
block and its lowest point, the first of them. Only then are the runs that have begun by
today left out, so a run goes or stays as a whole.
-/

namespace BetterDecision

/-- The balances of a series, rounded to cents. -/
def CentsSeries (series : List (Int × Decimal)) (points : List (Int × Int)) : Prop :=
  List.Forall₂ (fun raw point => point.1 = raw.1 ∧ quantizeTwoPlaces raw.2 = .ok point.2) series points

/-- A point the account is overdrawn at. -/
def BelowThreshold (point : Int × Int) : Prop := point.2 < lowBalanceThreshold

instance (point : Int × Int) : Decidable (BelowThreshold point) := inferInstanceAs (Decidable (_ < _))

/-- What a run tells of its block. -/
structure RiskRunOf (block : (Int × Int) × List (Int × Int)) (run : RiskRun) : Prop where
  runFrom : run.runFrom = block.1.1
  through : run.through = ((block.1 :: block.2).getLast (List.cons_ne_nil _ _)).1
  lowest : ∀ point ∈ block.1 :: block.2, run.lowestBalance ≤ point.2
  /-- The first day with the lowest balance. -/
  first : ∃ before point after, block.1 :: block.2 = before ++ point :: after ∧ point.2 = run.lowestBalance ∧
    point.1 = run.lowestOn ∧ ∀ earlier ∈ before, run.lowestBalance < earlier.2

theorem riskRunOf_open (point : Int × Int) : RiskRunOf (point, []) (openRun point) where
  runFrom := rfl
  through := rfl
  lowest q hq := by
    obtain rfl := List.mem_singleton.mp hq
    exact le_rfl
  first := ⟨[], point, [], rfl, rfl, rfl, fun _ h => nomatch h⟩

theorem riskRunOf_extend {first : Int × Int} {rest : List (Int × Int)} {run : RiskRun} (h : RiskRunOf (first, rest) run)
    (point : Int × Int) : RiskRunOf (first, rest ++ [point]) (extendRun run point) := by
  have hlast : ((first :: (rest ++ [point])).getLast (List.cons_ne_nil _ _)) = point :=
    @List.getLast_concat _ point (first :: rest)
  obtain ⟨before, low, after, hblock, hbalance, hday, hearlier⟩ := h.first
  unfold extendRun
  split
  · -- a new low
    rename_i hlow
    refine ⟨h.runFrom, congrArg Prod.fst hlast.symm, fun q hq => ?_, first :: rest, point, [], rfl, rfl, rfl, fun q hq => ?_⟩
    · rcases List.mem_append.mp (show q ∈ (first :: rest) ++ [point] from hq) with hq | hq
      · exact hlow.le.trans (h.lowest q hq)
      · exact List.mem_singleton.mp hq ▸ le_rfl
    · exact hlow.trans_le (h.lowest q hq)
  · rename_i hlow
    refine ⟨h.runFrom, congrArg Prod.fst hlast.symm, fun q hq => ?_, before, low, after ++ [point], ?_, hbalance, hday,
      hearlier⟩
    · rcases List.mem_append.mp (show q ∈ (first :: rest) ++ [point] from hq) with hq | hq
      · exact h.lowest q hq
      · obtain rfl := List.mem_singleton.mp hq
        exact not_lt.mp hlow
    · change (first :: rest) ++ [point] = _
      rw [hblock, List.append_assoc]
      rfl

/-- The summary of a block is its run. -/
theorem riskRunOf_summary (block : (Int × Int) × List (Int × Int)) :
    RiskRunOf block (Blocks.summary openRun extendRun block) := by
  obtain ⟨first, rest⟩ := block
  induction rest using List.reverseRecOn with
  | nil => exact riskRunOf_open first
  | append_singleton rest point ih =>
    have hsummary : Blocks.summary openRun extendRun (first, rest ++ [point]) =
        extendRun (Blocks.summary openRun extendRun (first, rest)) point := List.foldl_concat _ _ _ _
    rw [hsummary]
    exact riskRunOf_extend ih point

/-! ## The pass -/

theorem riskStep_eq {raw : Int × Decimal} {point : Int × Int}
    (h : point.1 = raw.1 ∧ quantizeTwoPlaces raw.2 = .ok point.2) (w : Blocks.Walk RiskRun) :
    riskStep w raw = .ok (Blocks.step BelowThreshold openRun extendRun w point) := by
  obtain ⟨hday, hbalance⟩ := h
  unfold riskStep Blocks.step
  rw [hbalance, ← hday, bind_ok]
  by_cases hbelow : point.2 < lowBalanceThreshold
  · rw [if_pos hbelow, if_pos (show BelowThreshold point from hbelow)]
    cases w.current <;> rfl
  · rw [if_neg hbelow, if_neg (show ¬ BelowThreshold point from hbelow)]
    cases w.current <;> rfl

theorem riskStep_error {raw : Int × Decimal} (h : ∀ cents, quantizeTwoPlaces raw.2 ≠ .ok cents)
    (w : Blocks.Walk RiskRun) : riskStep w raw = .error (.runtime "InvalidOperation") := by
  have hraised : quantizeTwoPlaces raw.2 = .error (.runtime "InvalidOperation") := by
    unfold quantizeTwoPlaces at h ⊢
    split
    · rfl
    · split
      · rfl
      · rename_i x hx hfits
        rw [hx] at h
        exact absurd (if_neg hfits) (h _)
  unfold riskStep
  rw [hraised]
  rfl

theorem foldlM_riskStep {series : List (Int × Decimal)} {points : List (Int × Int)} (h : CentsSeries series points)
    (w : Blocks.Walk RiskRun) :
    series.foldlM riskStep w = .ok (points.foldl (Blocks.step BelowThreshold openRun extendRun) w) := by
  induction h generalizing w with
  | nil => rfl
  | cons hpoint _ ih =>
    rw [List.foldlM_cons, riskStep_eq hpoint, bind_ok, ih]
    rfl

theorem foldlM_riskStep_error {series : List (Int × Decimal)} (h : ¬ ∃ points, CentsSeries series points)
    (w : Blocks.Walk RiskRun) : series.foldlM riskStep w = .error (.runtime "InvalidOperation") := by
  induction series generalizing w with
  | nil => exact absurd ⟨[], .nil⟩ h
  | cons raw series ih =>
    rw [List.foldlM_cons]
    by_cases hcents : ∃ cents, quantizeTwoPlaces raw.2 = .ok cents
    · obtain ⟨cents, hcents⟩ := hcents
      have hpoint : (raw.1, cents).1 = raw.1 ∧ quantizeTwoPlaces raw.2 = .ok (raw.1, cents).2 := ⟨rfl, hcents⟩
      rw [riskStep_eq hpoint, bind_ok]
      exact ih (fun ⟨points, hpoints⟩ => h ⟨(raw.1, cents) :: points, .cons hpoint hpoints⟩) _
    · rw [riskStep_error fun cents hok => hcents ⟨cents, hok⟩]
      rfl

/-- **One entry for each maximal stretch below the threshold that begins after today**, in
order; a balance that cannot be rounded raises. -/
theorem risk_runs_exact (series : List (Int × Decimal)) (typeSlug : Option String) (today : Int)
    (htype : typeSlug ∉ liabilitySlugs) :
    (∀ points, CentsSeries series points → ∃ blocks runs, Blocks.Cut BelowThreshold points blocks ∧
      List.Forall₂ RiskRunOf blocks runs ∧
      riskRuns series typeSlug today = .ok ((runs.filter (today < ·.runFrom)).map RiskRun.entry)) ∧
    ((¬ ∃ points, CentsSeries series points) →
      riskRuns series typeSlug today = .error (.runtime "InvalidOperation")) := by
  unfold riskRuns
  rw [if_neg htype]
  refine ⟨fun points hpoints => ?_, fun hnone => ?_⟩
  · obtain ⟨blocks, hcut⟩ := @Blocks.exists_cut _ BelowThreshold _ points
    have hpass := Blocks.collect_cut openRun extendRun hcut []
    refine ⟨blocks, blocks.map (Blocks.summary openRun extendRun), hcut, ?_, ?_⟩
    · exact List.forall₂_map_right_iff.mpr (List.forall₂_same.mpr fun block _ => riskRunOf_summary block)
    · rw [foldlM_riskStep hpoints, bind_ok, hpass]
      rfl
  · rw [foldlM_riskStep_error hnone]
    rfl

/-- A dip that has begun by today, and one that is still to come. -/
def dippingSeries : List (Int × Decimal) :=
  [(739309, .finite true 500 (-2)), (739310, .finite true 3 0), (739311, .finite false 2 0),
    (739312, .finite true 1004 (-3)), (739313, .finite true 25 (-1))]

theorem risk_runs_exact_dip :
    (∃ blocks runs, Blocks.Cut BelowThreshold
        [(739309, -500), (739310, -300), (739311, 200), (739312, -100), (739313, -250)] blocks ∧
      List.Forall₂ RiskRunOf blocks runs ∧
      riskRuns dippingSeries (some "checking") 739310 =
        .ok ((runs.filter (739310 < ·.runFrom)).map RiskRun.entry)) ∧
    riskRuns dippingSeries (some "checking") 739310 =
      .ok [{ runFrom := "2025-03-02", through := "2025-03-03", lowestBalance := "-2.50", lowestOn := "2025-03-03" }] := by
  refine ⟨(risk_runs_exact dippingSeries (some "checking") 739310 (by decide)).1 _ ?_, by decide +kernel⟩
  exact .cons ⟨rfl, by decide +kernel⟩ (.cons ⟨rfl, by decide +kernel⟩ (.cons ⟨rfl, by decide +kernel⟩
    (.cons ⟨rfl, by decide +kernel⟩ (.cons ⟨rfl, by decide +kernel⟩ .nil))))

/-- Ten to the 27 has 30 digits when rounded to cents. -/
theorem risk_runs_too_large :
    ¬ ∀ (series : List (Int × Decimal)) (typeSlug : Option String) (today : Int),
      series.Pairwise (fun a b => a.1 < b.1) → typeSlug ∉ liabilitySlugs →
      ∃ result, riskRuns series typeSlug today = .ok result := by
  intro h
  obtain ⟨result, hresult⟩ := h [(739311, .finite false 1 27)] (some "checking") 739310 (List.pairwise_singleton _ _)
    (by decide)
  have hraised : riskRuns [(739311, .finite false 1 27)] (some "checking") 739310 =
      .error (.runtime "InvalidOperation") := by decide +kernel
  rw [hraised] at hresult
  cases hresult

end BetterDecision
