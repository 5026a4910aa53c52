import BetterDecision.Model.RequiredContribution
import BetterDecision.Lib.Runs

/-!
# The required contribution is rounded both ways

A balance is linear in what is saved, with the slope the loop divides by, so the need it comes to
is the least saving that meets every check. It is then rounded to the nearest cent, and a need with
less than half a cent on top is cut to a saving that falls short.
-/

namespace BetterDecision

open Compound

variable {opening r : ℚ} {flows : List ℚ} {checks : List (Nat × ℚ)} {contributeUntil : Int}

/-! ## Checks -/

/-- The flows with `c` saved in the months before `contributeUntil`. -/
def saving (c : ℚ) (contributeUntil : Int) (flows : List ℚ) : List ℚ := paying c contributeUntil.toNat flows

/-- The balance of the month is at least the floor. -/
def CheckMet (balances : List ℚ) (check : Nat × ℚ) : Prop := ∃ balance ∈ balances[check.1]?, check.2 ≤ balance

/-- Every check is met when `c` is saved on top of the flows. -/
def Meets (opening : ℚ) (flows : List ℚ) (r : ℚ) (checks : List (Nat × ℚ)) (contributeUntil : Int) (c : ℚ) : Prop :=
  ∀ check ∈ checks, CheckMet (grow opening (saving c contributeUntil flows) r) check

/-- A check that saving cannot help: short, and with no month to pay in before it. -/
def Hopeless (opening : ℚ) (flows : List ℚ) (r : ℚ) (contributeUntil : Int) (check : Nat × ℚ) : Prop :=
  (∃ balance ∈ (grow opening flows r)[check.1]?, balance < check.2) ∧ min (check.1 + 1 : Int) contributeUntil ≤ 0

theorem savingSlope_eq (m : Nat) : savingSlope r contributeUntil m = worth (1 + r) contributeUntil.toNat m := by
  have hmonths : (min (m + 1 : Int) contributeUntil).toNat = min (m + 1) contributeUntil.toNat := by omega
  unfold savingSlope worth
  rw [hmonths]
  rfl

variable (opening r contributeUntil) in
theorem grow_getElem? {m : Nat} (hm : m < flows.length) :
    ∃ balance, (grow opening flows r)[m]? = some balance ∧
      ∀ c, (grow opening (saving c contributeUntil flows) r)[m]? =
        some (balance + c * worth (1 + r) contributeUntil.toNat m) := by
  have hlen : m < (balances (1 + r) opening flows).length := by simpa using hm
  refine ⟨_, List.getElem?_eq_getElem hlen, fun c => ?_⟩
  have hpaid : m < (balances (1 + r) opening (paying c contributeUntil.toNat flows)).length := by simpa using hm
  rw [← getElem_balances_paying (1 + r) opening c contributeUntil.toNat flows hpaid hlen]
  exact List.getElem?_eq_getElem hpaid

theorem worth_pos_iff (hr : 0 ≤ r) (m : Nat) :
    0 < worth (1 + r) contributeUntil.toNat m ↔ ¬ min (m + 1 : Int) contributeUntil ≤ 0 := by
  rcases Nat.eq_zero_or_pos contributeUntil.toNat with hzero | hpos
  · rw [hzero, worth_zero]
    exact iff_of_false (lt_irrefl 0) (by omega)
  · exact iff_of_true (worth_pos (by linarith) hpos m) (by omega)

/-! ## The loop -/

/-- What the loop comes to from a need it already has. -/
structure LeastNeed (opening : ℚ) (flows : List ℚ) (r : ℚ) (checks : List (Nat × ℚ)) (contributeUntil : Int)
    (start need : ℚ) : Prop where
  le : start ≤ need
  meets : Meets opening flows r checks contributeUntil need
  least : need = start ∨ ∀ c < need, ¬ Meets opening flows r checks contributeUntil c
  hopeful : ¬ ∃ check ∈ checks, Hopeless opening flows r contributeUntil check

/-- A check met at an amount is met at a larger one. -/
theorem CheckMet.mono {c c' : ℚ} {check : Nat × ℚ} (hr : 0 ≤ r) (hm : check.1 < flows.length) (hle : c ≤ c')
    (h : CheckMet (grow opening (saving c contributeUntil flows) r) check) :
    CheckMet (grow opening (saving c' contributeUntil flows) r) check := by
  obtain ⟨balance, -, hsaved⟩ := grow_getElem? opening r contributeUntil hm
  obtain ⟨b, hb, hfloor⟩ := h
  obtain rfl := Option.some.inj ((hsaved c).symm.trans hb)
  refine ⟨_, hsaved c', hfloor.trans ?_⟩
  have := mul_le_mul_of_nonneg_right hle (worth_nonneg (show 0 ≤ 1 + r by linarith) contributeUntil.toNat check.1)
  linarith

variable (opening contributeUntil) in
theorem requiredNeed_spec (hr : 0 ≤ r) (hmonths : ∀ check ∈ checks, check.1 < flows.length) {start : ℚ}
    (hstart : 0 ≤ start) :
    (requiredNeed (grow opening flows r) contributeUntil r checks start = .ok none ∧
      ∃ check ∈ checks, Hopeless opening flows r contributeUntil check) ∨
    ∃ need, requiredNeed (grow opening flows r) contributeUntil r checks start = .ok (some need) ∧
      LeastNeed opening flows r checks contributeUntil start need := by
  induction checks generalizing start with
  | nil => exact .inr ⟨start, rfl, le_rfl, (fun _ h => by cases h), .inl rfl, by simp⟩
  | cons check checks ih =>
    obtain ⟨m, floor⟩ := check
    obtain ⟨hm, hrest⟩ := List.forall_mem_cons.mp hmonths
    obtain ⟨balance, hbalance, hsaved⟩ :=
      grow_getElem? opening r contributeUntil hm
    have hmet : ∀ c, CheckMet (grow opening (saving c contributeUntil flows) r) (m, floor) ↔
        floor ≤ balance + c * worth (1 + r) contributeUntil.toNat m := by
      intro c
      simp [CheckMet, hsaved c]
    have hhopeless : Hopeless opening flows r contributeUntil (m, floor) ↔
        balance < floor ∧ min (m + 1 : Int) contributeUntil ≤ 0 := by
      simp [Hopeless, hbalance]
    simp only [requiredNeed, hbalance, savingSlope_eq]
    rcases le_or_gt (floor - balance) 0 with hcovered | hshort
    · -- the balance covers the floor without more
      rw [if_pos hcovered]
      rcases ih hrest hstart with ⟨hnone, other, hother, hno⟩ | ⟨need, hneed, hle, hmeets, hleast, hhope⟩
      · exact .inl ⟨hnone, other, List.mem_cons_of_mem _ hother, hno⟩
      · refine .inr ⟨need, hneed, hle, List.forall_mem_cons.mpr ⟨?_, hmeets⟩, hleast.imp_right fun h c hc hall => ?_, ?_⟩
        · rw [hmet]
          have := mul_nonneg (hstart.trans hle) (worth_nonneg (show 0 ≤ 1 + r by linarith) contributeUntil.toNat m)
          linarith
        · exact h c hc (List.forall_mem_cons.mp hall).2
        · rintro ⟨other, hother, hno⟩
          rcases List.mem_cons.mp hother with rfl | hother
          · have := (hhopeless.mp hno).1
            linarith
          · exact hhope ⟨other, hother, hno⟩
    · rw [if_neg (not_le.mpr hshort)]
      by_cases hzero : worth (1 + r) contributeUntil.toNat m = 0
      · rw [if_pos hzero]
        refine .inl ⟨rfl, _, List.mem_cons_self, hhopeless.mpr ⟨by linarith, ?_⟩⟩
        by_contra hpays
        exact (lt_irrefl (0 : ℚ)) (hzero ▸ (worth_pos_iff hr m).mpr hpays)
      · -- the need of this check, if it is the largest so far
        rw [if_neg hzero]
        have hpos : 0 < worth (1 + r) contributeUntil.toNat m :=
          lt_of_le_of_ne (worth_nonneg (by linarith) _ _) (Ne.symm hzero)
        have hneeds : ∀ c, CheckMet (grow opening (saving c contributeUntil flows) r) (m, floor) ↔
            (floor - balance) / worth (1 + r) contributeUntil.toNat m ≤ c := by
          intro c
          rw [hmet, div_le_iff₀ hpos]
          constructor
          · intro h
            linarith
          · intro h
            linarith
        have hmax : 0 ≤ max start ((floor - balance) / worth (1 + r) contributeUntil.toNat m) := le_max_of_le_left hstart
        rcases ih hrest hmax with ⟨hnone, other, hother, hno⟩ | ⟨need, hneed, hle, hmeets, hleast, hhope⟩
        · exact .inl ⟨hnone, other, List.mem_cons_of_mem _ hother, hno⟩
        · have hown := (le_max_right _ _).trans hle
          refine .inr ⟨need, hneed, (le_max_left _ _).trans hle,
            List.forall_mem_cons.mpr ⟨(hneeds need).mpr hown, hmeets⟩, ?_, ?_⟩
          · rcases hleast with hsame | hleast
            · rcases le_total ((floor - balance) / worth (1 + r) contributeUntil.toNat m) start with hlow | hhigh
              · exact .inl (hsame.trans (max_eq_left hlow))
              · refine .inr fun c hc hall => ?_
                rw [hsame, max_eq_right hhigh] at hc
                exact not_le.mpr hc ((hneeds c).mp (List.forall_mem_cons.mp hall).1)
            · exact .inr fun c hc hall => hleast c hc (List.forall_mem_cons.mp hall).2
          · rintro ⟨other, hother, hno⟩
            rcases List.mem_cons.mp hother with rfl | hother
            · exact absurd (hhopeless.mp hno).2 ((worth_pos_iff hr m).mp hpos)
            · exact hhope ⟨other, hother, hno⟩

/-! ## Rounding -/

/-- The nearest cent is no less iff the amount is a whole number of cents, or at least half a cent above
one. -/
theorem le_toCents_iff {x : ℚ} (hx : 0 ≤ x) : x ≤ toCents x ↔ Int.fract (x * 100) = 0 ∨ 1 / 2 ≤ Int.fract (x * 100) := by
  unfold toCents quantizeCents
  rw [if_pos hx, le_div_iff₀ (by norm_num : (0 : ℚ) < 100)]
  have hfloor := Int.floor_add_fract (x * 100)
  have hnonneg := Int.fract_nonneg (x * 100)
  have hlt := Int.fract_lt_one (x * 100)
  rcases lt_or_ge (Int.fract (x * 100)) (1 / 2) with hdown | hup
  · have hround : ⌊x * 100 + 1 / 2⌋ = ⌊x * 100⌋ := by
      rw [Int.floor_eq_iff]
      constructor
      · linarith
      · linarith
    rw [hround]
    constructor
    · intro h
      exact .inl (by linarith)
    · rintro (hzero | hhalf)
      · linarith
      · linarith
  · have hround : ⌊x * 100 + 1 / 2⌋ = ⌊x * 100⌋ + 1 := by
      rw [Int.floor_eq_iff]
      push_cast
      constructor
      · linarith
      · linarith
    rw [hround]
    push_cast
    exact iff_of_true (by linarith) (.inr hup)

/-- A cent less than the nearest cent is less. -/
theorem toCents_sub_lt {x : ℚ} (hx : 0 ≤ x) : toCents x - 1 / 100 < x ∧ 0 ≤ toCents x := by
  unfold toCents quantizeCents
  rw [if_pos hx]
  have hfloor := Int.floor_le (x * 100 + 1 / 2)
  have hnonneg : 0 ≤ ⌊x * 100 + 1 / 2⌋ := Int.floor_nonneg.mpr (by linarith)
  have hcast : (0 : ℚ) ≤ (⌊x * 100 + 1 / 2⌋ : ℚ) := by exact_mod_cast hnonneg
  refine ⟨by linarith, by linarith⟩

/-- A positive number of cents is one at least. -/
theorem cent_le_toCents {x : ℚ} (h : 0 < toCents x) : 1 / 100 ≤ toCents x := by
  unfold toCents at h ⊢
  have hpos : (0 : ℚ) < quantizeCents x := by linarith
  have hone : 1 ≤ quantizeCents x := by
    have : 0 < quantizeCents x := by exact_mod_cast hpos
    omega
  have hcast : (1 : ℚ) ≤ quantizeCents x := by exact_mod_cast hone
  linarith

/-! ## The contribution -/

/-- What it is for the contribution to be enough and no more, and to be missing only where saving
cannot help. -/
structure RequiredExactly (opening : ℚ) (flows : List ℚ) (r : ℚ) (checks : List (Nat × ℚ)) (contributeUntil : Int) :
    Prop where
  enough : ∀ c, requiredContribution (grow opening flows r) checks contributeUntil r = .ok (some c) →
    Meets opening flows r checks contributeUntil c
  minimal : ∀ c, requiredContribution (grow opening flows r) checks contributeUntil r = .ok (some c) → 0 < c →
    ¬ Meets opening flows r checks contributeUntil (c - 1 / 100)
  missing : requiredContribution (grow opening flows r) checks contributeUntil r = .ok none ↔
    ∃ check ∈ checks, Hopeless opening flows r contributeUntil check

end BetterDecision
