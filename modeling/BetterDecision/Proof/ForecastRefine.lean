import BetterDecision.Lib.Runs
import BetterDecision.Model.ForecastRefine

/-!
# When the refinement of a forecast does not fail

`Coercible` says of an answer what the conversions of `_coerce_adjustments` need: lists that
can be iterated, no infinite id and no integer past the largest double where they are
converted, and texts that are Unicode where they are kept. `refinement_never_fails_iff`:
that, and nothing else, is when the answer is coerced to valid adjustments.

Rounding is onto a grid, and what is a multiple of its step is not passed
(`le_halfEven`, `halfEven_le`): half and three halves of an amount bound its refinement.
-/

namespace BetterDecision

variable {repr : PyJson → PyText}

/-! ## Rounding -/

theorem le_halfEven {x : ℚ} {n : Int} (h : (n : ℚ) ≤ x) : n ≤ halfEven x := by
  have hfloor : n ≤ ⌊x⌋ := Int.le_floor.mpr h
  rw [halfEven]
  split_ifs <;> omega

theorem halfEven_le {x : ℚ} {n : Int} (h : x ≤ n) : halfEven x ≤ n := by
  have hfloor : ⌊x⌋ ≤ n := by
    have := Int.floor_le x
    exact_mod_cast this.trans h
  -- past the floor only if there is something past it
  have hup : x - ⌊x⌋ ≠ 0 → ⌊x⌋ + 1 ≤ n := by
    intro hne
    by_contra hlt
    have heq : ⌊x⌋ = n := by omega
    have hle := Int.floor_le x
    rw [heq] at hne hle
    exact hne (by linarith)
  rw [halfEven]
  split_ifs with h1 h2 h3
  · exact hfloor
  · exact hup (by linarith)
  · exact hfloor
  · exact hup (by linarith)

theorem halfEven_intCast (n : Int) : halfEven n = n := le_antisymm (halfEven_le le_rfl) (le_halfEven le_rfl)

theorem decimalContext_eq {x : ℚ} (h : x ≠ 0) :
    decimalContext x = halfEven (x * 10 ^ (27 - Int.log 10 |x|)) / 10 ^ (27 - Int.log 10 |x|) := by
  rw [decimalContext, if_neg h]
  rfl

/-- A number below `10 ^ 24` is rounded at its fourth digit behind the point or later. -/
theorem context_shift {x : ℚ} (h : x ≠ 0) (hlt : |x| < 10 ^ 24) : ∃ k : Nat, 27 - Int.log 10 |x| = (4 + k : Nat) := by
  have hlog : Int.log 10 |x| < 24 := by
    refine (Int.lt_zpow_iff_log_lt (by norm_num) (abs_pos.mpr h)).mp ?_
    exact_mod_cast hlt
  exact ⟨(23 - Int.log 10 |x|).toNat, by omega⟩

/-- What four digits behind the point are enough for is not passed by rounding. -/
theorem decimalContext_bounds {x : ℚ} (hlt : |x| < 10 ^ 24) (lo hi : Int) (hlo : (lo : ℚ) / 10 ^ 4 ≤ x)
    (hhi : x ≤ (hi : ℚ) / 10 ^ 4) : (lo : ℚ) / 10 ^ 4 ≤ decimalContext x ∧ decimalContext x ≤ (hi : ℚ) / 10 ^ 4 := by
  by_cases h : x = 0
  · rw [h, decimalContext, if_pos rfl]
    exact ⟨h ▸ hlo, h ▸ hhi⟩
  obtain ⟨k, hk⟩ := context_shift h hlt
  rw [decimalContext_eq h, hk, zpow_natCast]
  have hpos : (0 : ℚ) < 10 ^ (4 + k) := by positivity
  have hscale : ∀ n : Int, (n : ℚ) / 10 ^ 4 * 10 ^ (4 + k) = ((n * 10 ^ k : Int) : ℚ) := by
    intro n
    push_cast
    rw [pow_add]
    field_simp
  constructor
  · have h : ((lo * 10 ^ k : Int) : ℚ) ≤ x * 10 ^ (4 + k) := by
      rw [← hscale]
      exact mul_le_mul_of_nonneg_right hlo hpos.le
    rw [le_div_iff₀ hpos, hscale, Int.cast_le]
    exact le_halfEven h
  · have h : x * 10 ^ (4 + k) ≤ ((hi * 10 ^ k : Int) : ℚ) := by
      rw [← hscale]
      exact mul_le_mul_of_nonneg_right hhi hpos.le
    rw [div_le_iff₀ hpos, hscale, Int.cast_le]
    exact halfEven_le h

/-- A sum of amounts that are not too large is exact. -/
theorem addAmounts_eq {a b : Int} (h : |a + b| < 10 ^ 26) : addAmounts a b = a + b := by
  have habs : |((a : ℚ) + b) / 100| < 10 ^ 24 := by
    have hcast : |(a : ℚ) + b| < 10 ^ 26 := by exact_mod_cast h
    rw [abs_div, abs_of_pos (by norm_num : (0 : ℚ) < 100), div_lt_iff₀ (by norm_num)]
    linarith
  have hgrid : (((a + b) * 100 : Int) : ℚ) / 10 ^ 4 = ((a : ℚ) + b) / 100 := by
    push_cast
    ring
  obtain ⟨hlo, hhi⟩ := decimalContext_bounds habs _ _ hgrid.le hgrid.ge
  have hexact : decimalContext (((a : ℚ) + b) / 100) = ((a : ℚ) + b) / 100 :=
    le_antisymm (hhi.trans hgrid.le) (hgrid.ge.trans hlo)
  have hback : ((a : ℚ) + b) / 100 * 100 = ((a + b : Int) : ℚ) := by
    push_cast
    ring
  rw [addAmounts, hexact, hback, Int.floor_intCast]

theorem decimalOfFloat_band {x : ℚ} (hlo : 1 / 2 ≤ x) (hhi : x ≤ 3 / 2) :
    1 / 2 ≤ decimalOfFloat x ∧ decimalOfFloat x ≤ 3 / 2 := by
  have hdigits : ∀ n : Nat, 1 ≤ n → 1 / 2 ≤ (halfEven (x * 10 ^ n) : ℚ) / 10 ^ n ∧
      (halfEven (x * 10 ^ n) : ℚ) / 10 ^ n ≤ 3 / 2 := by
    intro n hn
    obtain ⟨k, rfl⟩ := Nat.exists_eq_add_of_le hn
    have hpos : (0 : ℚ) < 10 ^ (1 + k) := by positivity
    have hstep : (10 : ℚ) ^ (1 + k) = 10 * 10 ^ k := by rw [pow_add, pow_one]
    constructor
    · rw [le_div_iff₀ hpos]
      have h : ((5 * 10 ^ k : Int) : ℚ) ≤ x * 10 ^ (1 + k) := by
        push_cast
        nlinarith
      have := le_halfEven h
      have hcast : ((5 * 10 ^ k : Int) : ℚ) ≤ halfEven (x * 10 ^ (1 + k)) := by exact_mod_cast this
      push_cast at hcast
      linarith
    · rw [div_le_iff₀ hpos]
      have h : x * 10 ^ (1 + k) ≤ ((15 * 10 ^ k : Int) : ℚ) := by
        push_cast
        nlinarith
      have := halfEven_le h
      have hcast : (halfEven (x * 10 ^ (1 + k)) : ℚ) ≤ ((15 * 10 ^ k : Int) : ℚ) := by exact_mod_cast this
      push_cast at hcast
      linarith
  rw [decimalOfFloat]
  dsimp only
  split
  · next n hn =>
    have hmem := List.mem_of_find?_eq_some hn
    exact hdigits n (List.mem_range'_1.mp hmem).1
  · exact hdigits 17 (by decide)

/-- A refined amount is its baseline times a multiplier of the band, in cents. -/
theorem refineAmount_band {amount : Int} (hamount : |amount| < 10 ^ 25) {multiplier : ℚ} (hlo : 1 / 2 ≤ multiplier)
    (hhi : multiplier ≤ 3 / 2) :
    ∃ m : ℚ, 1 / 2 ≤ m ∧ m ≤ 3 / 2 ∧ refineAmount amount multiplier = quantizeCents ((amount : ℚ) / 100 * m) := by
  obtain ⟨hdlo, hdhi⟩ := decimalOfFloat_band hlo hhi
  rw [refineAmount]
  generalize decimalOfFloat multiplier = d at hdlo hdhi
  have hcast : |(amount : ℚ)| < 10 ^ 25 := by exact_mod_cast hamount
  have habs : |(amount : ℚ) / 100 * d| < 10 ^ 24 := by
    rw [abs_mul, abs_div, abs_of_pos (by norm_num : (0 : ℚ) < 100), abs_of_nonneg (by linarith : 0 ≤ d)]
    nlinarith [abs_nonneg (amount : ℚ)]
  rcases lt_trichotomy amount 0 with hneg | rfl | hpos
  · have hneg' : (amount : ℚ) / 100 < 0 := by
      have : (amount : ℚ) < 0 := by exact_mod_cast hneg
      linarith
    obtain ⟨hl, hh⟩ := decimalContext_bounds habs (150 * amount) (50 * amount)
      (by push_cast; nlinarith) (by push_cast; nlinarith)
    push_cast at hl hh
    refine ⟨decimalContext ((amount : ℚ) / 100 * d) / ((amount : ℚ) / 100), ?_, ?_, ?_⟩
    · rw [le_div_iff_of_neg hneg']
      linarith
    · rw [div_le_iff_of_neg hneg']
      linarith
    · rw [mul_div_cancel₀ _ hneg'.ne]
  · exact ⟨1, by norm_num, by norm_num, by simp [decimalContext]⟩
  · have hpos' : 0 < (amount : ℚ) / 100 := by
      have : (0 : ℚ) < amount := by exact_mod_cast hpos
      linarith
    obtain ⟨hl, hh⟩ := decimalContext_bounds habs (50 * amount) (150 * amount)
      (by push_cast; nlinarith) (by push_cast; nlinarith)
    push_cast at hl hh
    refine ⟨decimalContext ((amount : ℚ) / 100 * d) / ((amount : ℚ) / 100), ?_, ?_, ?_⟩
    · rw [le_div_iff₀ hpos']
      linarith
    · rw [div_le_iff₀ hpos']
      linarith
    · rw [mul_div_cancel₀ _ hpos'.ne']

/-- In cents the band does not lead past twice the amount. -/
theorem abs_quantizeCents_le {amount : Int} {m : ℚ} (hlo : 1 / 2 ≤ m) (hhi : m ≤ 3 / 2) :
    |quantizeCents ((amount : ℚ) / 100 * m)| ≤ 2 * |amount| := by
  by_cases hzero : amount = 0
  · subst hzero
    norm_num [quantizeCents]
  have hone : (1 : ℚ) ≤ |(amount : ℚ)| := by exact_mod_cast Int.one_le_abs hzero
  have hround : ∀ x : ℚ, 0 ≤ x → |(⌊x * 100 + 1 / 2⌋ : Int)| ≤ ⌊x * 100 + 1 / 2⌋ := fun x hx =>
    (abs_of_nonneg (Int.floor_nonneg.mpr (by linarith))).le
  have hbound : ∀ x : ℚ, 0 ≤ x → x * 100 ≤ 3 / 2 * |(amount : ℚ)| → |(⌊x * 100 + 1 / 2⌋ : Int)| ≤ 2 * |amount| := by
    intro x hx hle
    have hfloor := Int.floor_le (x * 100 + 1 / 2)
    have hcast : ((⌊x * 100 + 1 / 2⌋ : Int) : ℚ) ≤ ((2 * |amount| : Int) : ℚ) := by
      push_cast
      linarith
    exact (hround x hx).trans (by exact_mod_cast hcast)
  have habs : |(amount : ℚ) / 100 * m| * 100 ≤ 3 / 2 * |(amount : ℚ)| := by
    rw [abs_mul, abs_div, abs_of_pos (by norm_num : (0 : ℚ) < 100), abs_of_nonneg (by linarith : 0 ≤ m)]
    nlinarith
  rw [quantizeCents]
  split_ifs with hsign
  · exact hbound _ hsign (by rwa [abs_of_nonneg hsign] at habs)
  · have hneg := le_of_lt (not_le.mp hsign)
    rw [abs_neg]
    exact hbound _ (by linarith) (by rwa [abs_of_nonpos hneg] at habs)

/-! ## What is coerced -/

def IsInfinite (v : PyJson) : Prop := ∃ negative, v = .float (.infinity negative)

/-- An integer with no double near it. -/
def TooLarge (v : PyJson) : Prop := ∃ n : Int, v = .int n ∧ doubleLimit ≤ |(n : ℚ)|

/-- `value or []` can be iterated. -/
def Iterates : PyJson → Prop
  | .bool b => b = false
  | .int n => n = 0
  | .float f => f = .finite 0
  | _ => True

/-- The rows of a list of the answer. -/
def rowsIn (v : PyJson) : List PyJson :=
  match v.rowsOf with
  | .ok rows => rows
  | .error _ => []

theorem rowsOf_ok {v : PyJson} : (∃ rows, v.rowsOf = .ok rows) ↔ Iterates v := by
  cases v with
  | none => exact iff_of_true ⟨[], rfl⟩ trivial
  | bool b =>
    cases b with
    | false => exact iff_of_true ⟨[], rfl⟩ rfl
    | true => exact iff_of_false nofun nofun
  | int n =>
    by_cases h : n = 0
    · subst h
      exact iff_of_true ⟨[], rfl⟩ rfl
    · refine iff_of_false (fun ⟨rows, hrows⟩ => ?_) h
      unfold PyJson.rowsOf at hrows
      rw [if_pos (by simpa [PyJson.truth] using h)] at hrows
      cases hrows
  | float f =>
    by_cases h : f = .finite 0
    · subst h
      exact iff_of_true ⟨[], rfl⟩ rfl
    · refine iff_of_false (fun ⟨rows, hrows⟩ => ?_) h
      unfold PyJson.rowsOf at hrows
      rw [if_pos (by simpa [PyJson.truth] using h)] at hrows
      cases hrows
  | str text =>
    refine iff_of_true ?_ trivial
    rw [PyJson.rowsOf]
    split <;> exact ⟨_, rfl⟩
  | list rows =>
    refine iff_of_true ?_ trivial
    rw [PyJson.rowsOf]
    split <;> exact ⟨_, rfl⟩
  | dict fields =>
    refine iff_of_true ?_ trivial
    rw [PyJson.rowsOf]
    split <;> exact ⟨_, rfl⟩

theorem rowsOf_eq {v : PyJson} (h : Iterates v) : v.rowsOf = .ok (rowsIn v) := by
  obtain ⟨rows, hrows⟩ := rowsOf_ok.mpr h
  rw [rowsIn, hrows]

/-- `int` fails for want of a number, or for an infinite one. -/
theorem toInt_overflow {v : PyJson} : v.toInt = .error .overflow ↔ IsInfinite v := by
  cases v with
  | float f =>
    cases f with
    | finite x => exact iff_of_false nofun nofun
    | infinity negative => exact iff_of_true rfl ⟨negative, rfl⟩
    | nan => exact iff_of_false nofun nofun
  | str text =>
    refine iff_of_false (fun h => ?_) (fun ⟨_, h⟩ => by cases h)
    rw [PyJson.toInt] at h
    split at h <;> cases h
  | none => exact iff_of_false nofun nofun
  | bool b => exact iff_of_false nofun nofun
  | int n => exact iff_of_false nofun nofun
  | list rows => exact iff_of_false nofun nofun
  | dict fields => exact iff_of_false nofun nofun

theorem toFloat_overflow {v : PyJson} : v.toFloat = .error .overflow ↔ TooLarge v := by
  cases v with
  | int n =>
    rw [PyJson.toFloat]
    split_ifs with h
    · exact iff_of_true rfl ⟨n, rfl, h⟩
    · exact iff_of_false (fun h => by cases h) (fun ⟨_, hn, hlarge⟩ => by cases hn; exact h hlarge)
  | str text =>
    refine iff_of_false (fun h => ?_) (fun ⟨_, h, _⟩ => by cases h)
    rw [PyJson.toFloat] at h
    split at h <;> cases h
  | none => exact iff_of_false nofun nofun
  | bool b => exact iff_of_false nofun nofun
  | float f => exact iff_of_false nofun nofun
  | list rows => exact iff_of_false nofun nofun
  | dict fields => exact iff_of_false nofun nofun

theorem asFloat_ok {v : PyJson} {default : ℚ} : (∃ x, asFloat v default = .ok x) ↔ ¬ TooLarge v := by
  rw [← toFloat_overflow, asFloat]
  cases hv : v.toFloat with
  | ok f => cases f <;> simp
  | error e => cases e <;> simp

/-- A row with an id and a name. -/
def usableSeasonal : PyJson → Bool
  | .dict fields => (PyJson.get fields categoryIdKey).toInt.isOk && nameOf fields ≠ []
  | _ => false

/-- A row with a name. An anomaly may be without an id. -/
def usableAnomaly : PyJson → Bool
  | .dict fields => nameOf fields ≠ []
  | _ => false

/-- A text all of whose characters are Unicode. -/
def IsUnicode (text : PyText) : Prop := ∀ c ∈ text, c.char?.isSome

/-- What an answer has to be for nothing to go wrong. -/
structure Coercible (repr : PyJson → PyText) (parsed : PyJson) : Prop where
  seasonal_rows : Iterates (PyJson.get (answerFields parsed) seasonalKey)
  seasonal_ids : ∀ fields, .dict fields ∈ rowsIn (PyJson.get (answerFields parsed) seasonalKey) →
    ¬ IsInfinite (PyJson.get fields categoryIdKey)
  multipliers : ∀ fields, .dict fields ∈ rowsIn (PyJson.get (answerFields parsed) seasonalKey) →
    usableSeasonal (.dict fields) = true → ¬ TooLarge (PyJson.get fields multiplierKey)
  anomaly_rows : Iterates (PyJson.get (answerFields parsed) anomaliesKey)
  anomaly_ids : ∀ fields, .dict fields ∈ rowsIn (PyJson.get (answerFields parsed) anomaliesKey) →
    usableAnomaly (.dict fields) = true → ¬ IsInfinite (PyJson.get fields categoryIdKey)
  confidence : ¬ TooLarge (PyJson.get (answerFields parsed) confidenceKey)
  /-- Of the rows that are kept. -/
  rationales : ∀ fields, .dict fields ∈
      ((rowsIn (PyJson.get (answerFields parsed) seasonalKey)).filter usableSeasonal).take 200 →
    IsUnicode ((PyJson.get fields rationaleKey).shown repr 240)
  descriptions : ∀ fields, .dict fields ∈
      ((rowsIn (PyJson.get (answerFields parsed) anomaliesKey)).filter usableAnomaly).take 60 →
    IsUnicode ((PyJson.get fields descriptionKey).shown repr 240)
  summary : IsUnicode ((PyJson.get (answerFields parsed) summaryKey).shown repr 480)

/-! ## Rows -/

theorem coerceSeasonal_ok {row : PyJson} :
    (∃ o, coerceSeasonal repr row = .ok o) ↔ ∀ fields, row = .dict fields →
      ¬ IsInfinite (PyJson.get fields categoryIdKey) ∧
      (usableSeasonal row = true → ¬ TooLarge (PyJson.get fields multiplierKey)) := by
  cases row with
  | dict fields =>
    have hall : (∀ fields', PyJson.dict fields = .dict fields' →
        ¬ IsInfinite (PyJson.get fields' categoryIdKey) ∧
        (usableSeasonal (.dict fields) = true → ¬ TooLarge (PyJson.get fields' multiplierKey))) ↔
        ¬ IsInfinite (PyJson.get fields categoryIdKey) ∧
        (usableSeasonal (.dict fields) = true → ¬ TooLarge (PyJson.get fields multiplierKey)) :=
      ⟨fun h => h fields rfl, fun h fields' heq => by cases heq; exact h⟩
    rw [hall, ← toInt_overflow, coerceSeasonal, usableSeasonal]
    cases hid : (PyJson.get fields categoryIdKey).toInt with
    | error e =>
      cases e with
      | overflow => exact iff_of_false (fun h => by cases h.choose_spec) (fun h => h.1 rfl)
      | type => exact iff_of_true ⟨none, rfl⟩ ⟨fun h => (by cases h), fun h => (by cases h)⟩
      | value => exact iff_of_true ⟨none, rfl⟩ ⟨fun h => (by cases h), fun h => (by cases h)⟩
    | ok categoryId =>
      dsimp only
      by_cases hname : nameOf fields = []
      · rw [if_pos hname]
        exact iff_of_true ⟨none, rfl⟩ ⟨fun h => (by cases h), fun h => by simp [hname] at h⟩
      · rw [if_neg hname, ← @asFloat_ok _ 1]
        constructor
        · rintro ⟨o, ho⟩
          obtain ⟨x, hx, -⟩ := bind_eq_ok.mp ho
          exact ⟨fun h => (by cases h), fun _ => ⟨x, hx⟩⟩
        · rintro ⟨-, h⟩
          exact bind_returns (h (by simp [Except.isOk, Except.toBool, hname])).choose_spec ⟨_, rfl⟩
  | none => exact iff_of_true ⟨none, rfl⟩ fun _ h => by cases h
  | bool b => exact iff_of_true ⟨none, rfl⟩ fun _ h => by cases h
  | int n => exact iff_of_true ⟨none, rfl⟩ fun _ h => by cases h
  | float f => exact iff_of_true ⟨none, rfl⟩ fun _ h => by cases h
  | str text => exact iff_of_true ⟨none, rfl⟩ fun _ h => by cases h
  | list rows => exact iff_of_true ⟨none, rfl⟩ fun _ h => by cases h

theorem coerceAnomaly_ok {row : PyJson} :
    (∃ o, coerceAnomaly repr row = .ok o) ↔ ∀ fields, row = .dict fields →
      usableAnomaly row = true → ¬ IsInfinite (PyJson.get fields categoryIdKey) := by
  cases row with
  | dict fields =>
    have hall : (∀ fields', PyJson.dict fields = .dict fields' → usableAnomaly (.dict fields) = true →
        ¬ IsInfinite (PyJson.get fields' categoryIdKey)) ↔
        (usableAnomaly (.dict fields) = true → ¬ IsInfinite (PyJson.get fields categoryIdKey)) :=
      ⟨fun h => h fields rfl, fun h fields' heq => by cases heq; exact h⟩
    rw [hall, ← toInt_overflow, coerceAnomaly, usableAnomaly]
    by_cases hname : nameOf fields = []
    · rw [if_pos hname]
      exact iff_of_true ⟨none, rfl⟩ fun h => by simp [hname] at h
    · rw [if_neg hname]
      have hid : (∃ id, anomalyId (PyJson.get fields categoryIdKey) = .ok id) ↔
          (PyJson.get fields categoryIdKey).toInt ≠ .error .overflow := by
        rw [anomalyId]
        cases (PyJson.get fields categoryIdKey).toInt with
        | ok n => exact iff_of_true ⟨_, rfl⟩ fun h => by cases h
        | error e => cases e <;> simp
      constructor
      · rintro ⟨o, ho⟩ -
        obtain ⟨id, hok, -⟩ := bind_eq_ok.mp ho
        exact hid.mp ⟨id, hok⟩
      · intro h
        exact bind_returns (hid.mpr (h (by simpa using hname))).choose_spec ⟨_, rfl⟩
  | none => exact iff_of_true ⟨none, rfl⟩ fun _ h => by cases h
  | bool b => exact iff_of_true ⟨none, rfl⟩ fun _ h => by cases h
  | int n => exact iff_of_true ⟨none, rfl⟩ fun _ h => by cases h
  | float f => exact iff_of_true ⟨none, rfl⟩ fun _ h => by cases h
  | str text => exact iff_of_true ⟨none, rfl⟩ fun _ h => by cases h
  | list rows => exact iff_of_true ⟨none, rfl⟩ fun _ h => by cases h

/-- A row of the seasonal list gives an adjustment iff it is usable. -/
theorem coerceSeasonal_isSome {row : PyJson} {o : Option SeasonalAdjustment} (h : coerceSeasonal repr row = .ok o) :
    o.isSome = usableSeasonal row := by
  cases row with
  | dict fields =>
    rw [coerceSeasonal] at h
    rw [usableSeasonal]
    split at h
    · cases h
    · next e _ hid =>
      obtain rfl := Except.ok.inj h
      rw [hid]
      rfl
    · next categoryId hid =>
      rw [hid]
      dsimp only at h
      split at h
      · next hname =>
        obtain rfl := Except.ok.inj h
        simp [hname]
      · next hname =>
        obtain ⟨x, -, h⟩ := bind_eq_ok.mp h
        obtain rfl := Except.ok.inj h
        simp [hname, Except.isOk, Except.toBool]
  | none => cases h; rfl
  | bool b => cases h; rfl
  | int n => cases h; rfl
  | float f => cases h; rfl
  | str text => cases h; rfl
  | list rows => cases h; rfl

theorem clampTo_band {x lo hi : ℚ} (h : lo ≤ hi) : lo ≤ clampTo x lo hi ∧ clampTo x lo hi ≤ hi :=
  ⟨le_max_left _ _, max_le h (min_le_left _ _)⟩

/-- The adjustment of a row. -/
theorem coerceSeasonal_some {row : PyJson} {a : SeasonalAdjustment} (h : coerceSeasonal repr row = .ok (some a)) :
    ∃ fields, row = .dict fields ∧ (1 / 2 ≤ a.multiplier ∧ a.multiplier ≤ 3 / 2) ∧
      a.rationale = (PyJson.get fields rationaleKey).shown repr 240 := by
  cases row with
  | dict fields =>
    rw [coerceSeasonal] at h
    split at h
    · cases h
    · cases h
    · dsimp only at h
      split at h
      · cases h
      · obtain ⟨x, -, h⟩ := bind_eq_ok.mp h
        obtain rfl := Option.some.inj (Except.ok.inj h)
        exact ⟨fields, rfl, clampTo_band (by norm_num), rfl⟩
  | none => cases h
  | bool b => cases h
  | int n => cases h
  | float f => cases h
  | str text => cases h
  | list rows => cases h

theorem coerceAnomaly_isSome {row : PyJson} {o : Option AnomalyFlag} (h : coerceAnomaly repr row = .ok o) :
    o.isSome = usableAnomaly row := by
  cases row with
  | dict fields =>
    rw [coerceAnomaly] at h
    rw [usableAnomaly]
    split at h
    · next hname =>
      obtain rfl := Except.ok.inj h
      simp [hname]
    · next hname =>
      obtain ⟨id, -, h⟩ := bind_eq_ok.mp h
      obtain rfl := Except.ok.inj h
      simp [hname]
  | none => cases h; rfl
  | bool b => cases h; rfl
  | int n => cases h; rfl
  | float f => cases h; rfl
  | str text => cases h; rfl
  | list rows => cases h; rfl

theorem coerceAnomaly_some {row : PyJson} {a : AnomalyFlag} (h : coerceAnomaly repr row = .ok (some a)) :
    ∃ fields, row = .dict fields ∧ a.description = (PyJson.get fields descriptionKey).shown repr 240 := by
  cases row with
  | dict fields =>
    rw [coerceAnomaly] at h
    split at h
    · cases h
    · obtain ⟨id, -, h⟩ := bind_eq_ok.mp h
      obtain rfl := Option.some.inj (Except.ok.inj h)
      exact ⟨fields, rfl, rfl⟩
  | none => cases h
  | bool b => cases h
  | int n => cases h
  | float f => cases h
  | str text => cases h
  | list rows => cases h

/-- A text is cut to its length, so Unicode is all that is asked. -/
theorem strictText_shown {v : PyJson} {n : Nat} : StrictText n (v.shown repr n) ↔ IsUnicode (v.shown repr n) := by
  refine ⟨fun h => h.1, fun h => ⟨h, ?_⟩⟩
  unfold PyJson.shown
  split
  · split <;> exact List.length_take_le _ _
  · exact Nat.zero_le n

/-! ## The coerced answer -/

/-- The answer's lists, coerced. -/
structure CoercedFrom (repr : PyJson → PyText) (parsed : PyJson) (seasonal : List (Option SeasonalAdjustment))
    (anomalies : List (Option AnomalyFlag)) (confidence : ℚ) : Prop where
  seasonal_rows : Iterates (PyJson.get (answerFields parsed) seasonalKey)
  seasonal : (rowsIn (PyJson.get (answerFields parsed) seasonalKey)).mapM (coerceSeasonal repr) = .ok seasonal
  anomaly_rows : Iterates (PyJson.get (answerFields parsed) anomaliesKey)
  anomalies : (rowsIn (PyJson.get (answerFields parsed) anomaliesKey)).mapM (coerceAnomaly repr) = .ok anomalies
  confidence : asFloat (PyJson.get (answerFields parsed) confidenceKey) (1 / 2) = .ok confidence

theorem coerceAdjustments_eq_ok {parsed : PyJson} {c : CoercedAdjustments} :
    coerceAdjustments repr parsed = .ok c ↔ ∃ seasonal anomalies confidence,
      CoercedFrom repr parsed seasonal anomalies confidence ∧
      c = { seasonal := seasonal.reduceOption.take 200, anomalies := anomalies.reduceOption.take 60
            confidence := clampTo confidence 0 1
            summary := (PyJson.get (answerFields parsed) summaryKey).shown repr 480 } := by
  have hrows : ∀ {v : PyJson} {rows : List PyJson}, v.rowsOf = .ok rows → Iterates v ∧ rows = rowsIn v :=
    fun {v rows} h => ⟨rowsOf_ok.mp ⟨rows, h⟩, by rw [rowsIn, h]⟩
  constructor
  · intro h
    obtain ⟨rows, h1, k1⟩ := bind_eq_ok.mp h
    obtain ⟨seasonal, h2, k2⟩ := bind_eq_ok.mp k1
    obtain ⟨rows', h3, k3⟩ := bind_eq_ok.mp k2
    obtain ⟨anomalies, h4, k4⟩ := bind_eq_ok.mp k3
    obtain ⟨confidence, h5, k5⟩ := bind_eq_ok.mp k4
    obtain ⟨hit, rfl⟩ := hrows h1
    obtain ⟨hit', rfl⟩ := hrows h3
    exact ⟨seasonal, anomalies, confidence, ⟨hit, h2, hit', h4, h5⟩, (Except.ok.inj k5).symm⟩
  · rintro ⟨seasonal, anomalies, confidence, h, rfl⟩
    rw [coerceAdjustments]
    exact bind_eq_ok.mpr ⟨_, rowsOf_eq h.seasonal_rows, bind_eq_ok.mpr ⟨_, h.seasonal,
      bind_eq_ok.mpr ⟨_, rowsOf_eq h.anomaly_rows, bind_eq_ok.mpr ⟨_, h.anomalies,
        bind_eq_ok.mpr ⟨_, h.confidence, rfl⟩⟩⟩⟩⟩

/-- An answer with another value in one field. -/
structure SameBut (parsed parsed' : PyJson) (key : PyText) (v : PyJson) : Prop where
  changed : PyJson.get (answerFields parsed') key = v
  kept : ∀ k, k ≠ key → PyJson.get (answerFields parsed') k = PyJson.get (answerFields parsed) k

/-- The response keeps to the band. -/
structure InBand (baseline : RefineBaseline) (response : RefinedForecastResponse) : Prop where
  rows : List.Forall₂ (fun cat row => row.categoryId = cat.categoryId ∧ row.baselineForecast = cat.forecast ∧
      (row.refinedForecast = cat.forecast ∨
        ∃ m : ℚ, 1 / 2 ≤ m ∧ m ≤ 3 / 2 ∧ row.refinedForecast = quantizeCents ((cat.forecast : ℚ) / 100 * m)))
    baseline.categories response.categories
  total : response.refinedForecastExpense = (response.categories.map (·.refinedForecast)).sum

/-- The refinement does not fail, keeps to the band, and does not see the rows it cannot use. -/
structure NeverFails (repr : PyJson → PyText) (baseline : RefineBaseline) (parsed : PyJson) : Prop where
  validates : ∃ coerced adjustments, coerceAdjustments repr parsed = .ok coerced ∧
    modelValidate coerced = some adjustments
  responds : ∃ response, refineForecast repr baseline parsed = .ok response ∧ InBand baseline response
  seasonal_left_out : ∀ xs row ys parsed',
    PyJson.get (answerFields parsed) seasonalKey = .list (xs ++ row :: ys) → usableSeasonal row = false →
    SameBut parsed parsed' seasonalKey (.list (xs ++ ys)) →
    refineForecast repr baseline parsed' = refineForecast repr baseline parsed
  anomaly_left_out : ∀ xs row ys parsed',
    PyJson.get (answerFields parsed) anomaliesKey = .list (xs ++ row :: ys) → usableAnomaly row = false →
    SameBut parsed parsed' anomaliesKey (.list (xs ++ ys)) →
    refineForecast repr baseline parsed' = refineForecast repr baseline parsed

section Coerced

variable {parsed parsed' : PyJson} {seasonal : List (Option SeasonalAdjustment)} {anomalies : List (Option AnomalyFlag)}
  {confidence : ℚ}

/-- The conversions go through. -/
theorem coercedFrom_iff : (∃ seasonal anomalies confidence, CoercedFrom repr parsed seasonal anomalies confidence) ↔
    Iterates (PyJson.get (answerFields parsed) seasonalKey) ∧
    (∀ fields, .dict fields ∈ rowsIn (PyJson.get (answerFields parsed) seasonalKey) →
      ¬ IsInfinite (PyJson.get fields categoryIdKey) ∧
      (usableSeasonal (.dict fields) = true → ¬ TooLarge (PyJson.get fields multiplierKey))) ∧
    Iterates (PyJson.get (answerFields parsed) anomaliesKey) ∧
    (∀ fields, .dict fields ∈ rowsIn (PyJson.get (answerFields parsed) anomaliesKey) →
      usableAnomaly (.dict fields) = true → ¬ IsInfinite (PyJson.get fields categoryIdKey)) ∧
    ¬ TooLarge (PyJson.get (answerFields parsed) confidenceKey) := by
  constructor
  · rintro ⟨seasonal, anomalies, confidence, h⟩
    refine ⟨h.seasonal_rows, fun fields hmem => ?_, h.anomaly_rows, fun fields hmem => ?_,
      asFloat_ok.mp ⟨_, h.confidence⟩⟩
    · exact coerceSeasonal_ok.mp (exists_of_mapM_eq_ok h.seasonal _ hmem) fields rfl
    · exact coerceAnomaly_ok.mp (exists_of_mapM_eq_ok h.anomalies _ hmem) fields rfl
  · rintro ⟨hrows, hseasonal, hrows', hanomalies, hconf⟩
    obtain ⟨seasonal, h2⟩ := mapM_returns (f := coerceSeasonal repr) fun row hmem => coerceSeasonal_ok.mpr
      fun fields hrow => by subst hrow; exact hseasonal fields hmem
    obtain ⟨anomalies, h4⟩ := mapM_returns (f := coerceAnomaly repr) fun row hmem => coerceAnomaly_ok.mpr
      fun fields hrow => by subst hrow; exact hanomalies fields hmem
    obtain ⟨confidence, h5⟩ := asFloat_ok.mpr hconf
    exact ⟨seasonal, anomalies, confidence, ⟨hrows, h2, hrows', h4, h5⟩⟩

/-- The kept rows and their adjustments, one for one. -/
theorem CoercedFrom.kept_seasonal (h : CoercedFrom repr parsed seasonal anomalies confidence) :
    List.Forall₂ (fun row a => coerceSeasonal repr row = .ok (some a))
      (((rowsIn (PyJson.get (answerFields parsed) seasonalKey)).filter usableSeasonal).take 200)
      (seasonal.reduceOption.take 200) :=
  List.forall₂_take 200 (mapM_usable (fun _ _ => coerceSeasonal_isSome) h.seasonal)

theorem CoercedFrom.kept_anomalies (h : CoercedFrom repr parsed seasonal anomalies confidence) :
    List.Forall₂ (fun row a => coerceAnomaly repr row = .ok (some a))
      (((rowsIn (PyJson.get (answerFields parsed) anomaliesKey)).filter usableAnomaly).take 60)
      (anomalies.reduceOption.take 60) :=
  List.forall₂_take 60 (mapM_usable (fun _ _ => coerceAnomaly_isSome) h.anomalies)

theorem CoercedFrom.seasonal_valid (h : CoercedFrom repr parsed seasonal anomalies confidence) :
    (∀ a ∈ seasonal.reduceOption.take 200, a.Valid) ↔ ∀ fields, .dict fields ∈
      ((rowsIn (PyJson.get (answerFields parsed) seasonalKey)).filter usableSeasonal).take 200 →
      IsUnicode ((PyJson.get fields rationaleKey).shown repr 240) := by
  have hkept := h.kept_seasonal
  constructor
  · intro hall fields hmem
    obtain ⟨a, ha, hrow⟩ := (exists_partner hkept).1 _ hmem
    obtain ⟨fields', heq, -, hrat⟩ := coerceSeasonal_some hrow
    cases heq
    exact strictText_shown.mp (hrat ▸ (hall a ha).2)
  · intro hall a ha
    obtain ⟨row, hmem, hrow⟩ := (exists_partner hkept).2 _ ha
    obtain ⟨fields, rfl, hband, hrat⟩ := coerceSeasonal_some hrow
    exact ⟨hband, hrat ▸ strictText_shown.mpr (hall fields hmem)⟩

theorem CoercedFrom.anomalies_valid (h : CoercedFrom repr parsed seasonal anomalies confidence) :
    (∀ a ∈ anomalies.reduceOption.take 60, a.Valid) ↔ ∀ fields, .dict fields ∈
      ((rowsIn (PyJson.get (answerFields parsed) anomaliesKey)).filter usableAnomaly).take 60 →
      IsUnicode ((PyJson.get fields descriptionKey).shown repr 240) := by
  have hkept := h.kept_anomalies
  constructor
  · intro hall fields hmem
    obtain ⟨a, ha, hrow⟩ := (exists_partner hkept).1 _ hmem
    obtain ⟨fields', heq, hdesc⟩ := coerceAnomaly_some hrow
    cases heq
    exact strictText_shown.mp (hdesc ▸ hall a ha)
  · intro hall a ha
    obtain ⟨row, hmem, hrow⟩ := (exists_partner hkept).2 _ ha
    obtain ⟨fields, rfl, hdesc⟩ := coerceAnomaly_some hrow
    change StrictText 240 a.description
    exact hdesc ▸ strictText_shown.mpr (hall fields hmem)

theorem modelValidate_isSome {c : CoercedAdjustments} : (∃ adjustments, modelValidate c = some adjustments) ↔
    (∀ a ∈ c.seasonal, a.Valid) ∧ c.seasonal.length ≤ 200 ∧ (∀ a ∈ c.anomalies, a.Valid) ∧
      c.anomalies.length ≤ 60 ∧ (0 ≤ c.confidence ∧ c.confidence ≤ 1) ∧ StrictText 480 c.summary := by
  rw [modelValidate]
  split
  · next h => exact iff_of_true ⟨_, rfl⟩ h
  · next h => exact iff_of_false nofun h

/-- **The answer is coerced to valid adjustments iff it is coercible.** -/
theorem validates_iff : (∃ coerced adjustments, coerceAdjustments repr parsed = .ok coerced ∧
    modelValidate coerced = some adjustments) ↔ Coercible repr parsed := by
  constructor
  · rintro ⟨coerced, adjustments, hok, hvalid⟩
    obtain ⟨seasonal, anomalies, confidence, h, rfl⟩ := coerceAdjustments_eq_ok.mp hok
    obtain ⟨hrows, hseasonal, hrows', hanomalies, hconf⟩ := coercedFrom_iff.mp ⟨seasonal, anomalies, confidence, h⟩
    obtain ⟨hsv, -, hav, -, -, hsum⟩ := modelValidate_isSome.mp ⟨adjustments, hvalid⟩
    exact ⟨hrows, fun fields hmem => (hseasonal fields hmem).1, fun fields hmem => (hseasonal fields hmem).2, hrows',
      hanomalies, hconf, h.seasonal_valid.mp hsv, h.anomalies_valid.mp hav, strictText_shown.mp hsum⟩
  · intro hc
    have hfrom : ∃ seasonal anomalies confidence, CoercedFrom repr parsed seasonal anomalies confidence :=
      coercedFrom_iff.mpr ⟨hc.seasonal_rows,
        fun fields hmem => ⟨hc.seasonal_ids fields hmem, hc.multipliers fields hmem⟩, hc.anomaly_rows, hc.anomaly_ids,
        hc.confidence⟩
    obtain ⟨seasonal, anomalies, confidence, h⟩ := hfrom
    have hok := coerceAdjustments_eq_ok.mpr ⟨seasonal, anomalies, confidence, h, rfl⟩
    have hseasonal := h.seasonal_valid.mpr hc.rationales
    have hanomalies := h.anomalies_valid.mpr hc.descriptions
    have hsummary := strictText_shown.mpr hc.summary
    have hconf : 0 ≤ clampTo confidence 0 1 ∧ clampTo confidence 0 1 ≤ 1 := clampTo_band zero_le_one
    have hlen : (seasonal.reduceOption.take 200).length ≤ 200 := List.length_take_le _ _
    have hlen' : (anomalies.reduceOption.take 60).length ≤ 60 := List.length_take_le _ _
    obtain ⟨adjustments, hvalid⟩ := (modelValidate_isSome (c :=
      { seasonal := seasonal.reduceOption.take 200, anomalies := anomalies.reduceOption.take 60
        confidence := clampTo confidence 0 1
        summary := (PyJson.get (answerFields parsed) summaryKey).shown repr 480 })).mpr
      ⟨hseasonal, hlen, hanomalies, hlen', hconf, hsummary⟩
    exact ⟨_, adjustments, hok, hvalid⟩

/-- What is coerced depends on the four fields only, and on the rows that give something. -/
theorem CoercedFrom.same {seasonal' : List (Option SeasonalAdjustment)} {anomalies' : List (Option AnomalyFlag)}
    (h : CoercedFrom repr parsed seasonal anomalies confidence)
    (h' : CoercedFrom repr parsed' seasonal' anomalies' confidence)
    (hseasonal : seasonal'.reduceOption = seasonal.reduceOption)
    (hanomalies : anomalies'.reduceOption = anomalies.reduceOption)
    (hsummary : PyJson.get (answerFields parsed') summaryKey = PyJson.get (answerFields parsed) summaryKey) :
    coerceAdjustments repr parsed' = coerceAdjustments repr parsed := by
  rw [coerceAdjustments_eq_ok.mpr ⟨seasonal, anomalies, confidence, h, rfl⟩]
  exact coerceAdjustments_eq_ok.mpr ⟨seasonal', anomalies', confidence, h', by rw [hseasonal, hanomalies, hsummary]⟩

end Coerced

theorem rowsIn_list (rows : List PyJson) : rowsIn (.list rows) = rows := by
  cases rows with
  | nil => rfl
  | cons row rows => rfl

theorem coerceAdjustments_seasonal_left_out {parsed parsed' row : PyJson} {xs ys : List PyJson}
    (hc : Coercible repr parsed)
    (hlist : PyJson.get (answerFields parsed) seasonalKey = .list (xs ++ row :: ys))
    (hrow : usableSeasonal row = false) (hsame : SameBut parsed parsed' seasonalKey (.list (xs ++ ys))) :
    coerceAdjustments repr parsed' = coerceAdjustments repr parsed := by
  obtain ⟨c, adjustments, hok, -⟩ := validates_iff.mpr hc
  obtain ⟨seasonal, anomalies, confidence, h, -⟩ := coerceAdjustments_eq_ok.mp hok
  have hseasonal := h.seasonal
  rw [hlist, rowsIn_list] at hseasonal
  obtain ⟨o, ho⟩ := exists_of_mapM_eq_ok hseasonal row (by simp)
  have hnone : o = none := by
    have := coerceSeasonal_isSome ho
    rwa [hrow, Option.isSome_eq_false_iff, Option.isNone_iff_eq_none] at this
  obtain ⟨seasonal', hmap, hreduce⟩ := mapM_leave_out (hnone ▸ ho) hseasonal
  have hkept := hsame.kept
  have h' : CoercedFrom repr parsed' seasonal' anomalies confidence :=
    ⟨by rw [hsame.changed]; trivial, by rw [hsame.changed, rowsIn_list]; exact hmap,
      by rw [hkept _ (by decide)]; exact h.anomaly_rows, by rw [hkept _ (by decide)]; exact h.anomalies,
      by rw [hkept _ (by decide)]; exact h.confidence⟩
  exact h.same h' hreduce rfl (hkept _ (by decide))

theorem coerceAdjustments_anomaly_left_out {parsed parsed' row : PyJson} {xs ys : List PyJson}
    (hc : Coercible repr parsed)
    (hlist : PyJson.get (answerFields parsed) anomaliesKey = .list (xs ++ row :: ys))
    (hrow : usableAnomaly row = false) (hsame : SameBut parsed parsed' anomaliesKey (.list (xs ++ ys))) :
    coerceAdjustments repr parsed' = coerceAdjustments repr parsed := by
  obtain ⟨c, adjustments, hok, -⟩ := validates_iff.mpr hc
  obtain ⟨seasonal, anomalies, confidence, h, -⟩ := coerceAdjustments_eq_ok.mp hok
  have hanomalies := h.anomalies
  rw [hlist, rowsIn_list] at hanomalies
  obtain ⟨o, ho⟩ := exists_of_mapM_eq_ok hanomalies row (by simp)
  have hnone : o = none := by
    have := coerceAnomaly_isSome ho
    rwa [hrow, Option.isSome_eq_false_iff, Option.isNone_iff_eq_none] at this
  obtain ⟨anomalies', hmap, hreduce⟩ := mapM_leave_out (hnone ▸ ho) hanomalies
  have hkept := hsame.kept
  have h' : CoercedFrom repr parsed' seasonal anomalies' confidence :=
    ⟨by rw [hkept _ (by decide)]; exact h.seasonal_rows, by rw [hkept _ (by decide)]; exact h.seasonal,
      by rw [hsame.changed]; trivial, by rw [hsame.changed, rowsIn_list]; exact hmap,
      by rw [hkept _ (by decide)]; exact h.confidence⟩
  exact h.same h' rfl hreduce (hkept _ (by decide))

/-! ## The response -/

theorem mem_of_adjustmentFor {seasonal : List SeasonalAdjustment} {categoryId : Int} {a : SeasonalAdjustment}
    (h : adjustmentFor seasonal categoryId = some a) : a ∈ seasonal :=
  List.mem_reverse.mp (List.mem_of_find?_eq_some h)

/-- A row of the response, and how large it can be. -/
theorem refineRow_band {seasonal : List SeasonalAdjustment} (hvalid : ∀ a ∈ seasonal, a.Valid) {cat : BaselineCategory}
    (hcat : |cat.forecast| < 10 ^ 25) :
    ((refineRow seasonal cat).refinedForecast = cat.forecast ∨ ∃ m : ℚ, 1 / 2 ≤ m ∧ m ≤ 3 / 2 ∧
      (refineRow seasonal cat).refinedForecast = quantizeCents ((cat.forecast : ℚ) / 100 * m)) ∧
    |(refineRow seasonal cat).refinedForecast| ≤ 2 * |cat.forecast| := by
  rw [refineRow]
  cases ha : adjustmentFor seasonal cat.categoryId with
  | none =>
    have := abs_nonneg cat.forecast
    exact ⟨Or.inl rfl, by dsimp only; omega⟩
  | some a =>
    obtain ⟨hlo, hhi⟩ := (hvalid a (mem_of_adjustmentFor ha)).1
    obtain ⟨m, hmlo, hmhi, heq⟩ := refineAmount_band hcat hlo hhi
    exact ⟨Or.inr ⟨m, hmlo, hmhi, heq⟩, by dsimp only; rw [heq]; exact abs_quantizeCents_le hmlo hmhi⟩

/-- A running total that is never too large is the sum. -/
theorem foldl_addAmounts (amounts : List Int) : ∀ total : Int, |total| + (amounts.map (|·|)).sum < 10 ^ 26 →
    amounts.foldl addAmounts total = total + amounts.sum := by
  induction amounts with
  | nil => intro total _; simp
  | cons a amounts ih =>
    intro total h
    rw [List.map_cons, List.sum_cons] at h
    have htail : 0 ≤ (amounts.map (|·|)).sum :=
      List.sum_nonneg fun x hx => by obtain ⟨y, -, rfl⟩ := List.mem_map.mp hx; exact abs_nonneg y
    have htri := abs_add_le total a
    have hadd : addAmounts total a = total + a := addAmounts_eq (by omega)
    rw [List.foldl_cons, hadd, ih _ (by omega), List.sum_cons, add_assoc]

theorem refinedResponse_inBand (baseline : RefineBaseline) (adjustments : AIForecastAdjustments) :
    InBand baseline (refinedResponse baseline adjustments) := by
  have hbounded := baseline.bounded
  have hnonneg : ∀ x ∈ baseline.categories.map (fun c => |c.forecast|), 0 ≤ x := by
    intro x hx
    obtain ⟨c, -, rfl⟩ := List.mem_map.mp hx
    exact abs_nonneg _
  have hcat : ∀ cat ∈ baseline.categories, |cat.forecast| < 10 ^ 25 := fun cat hmem =>
    lt_of_le_of_lt (List.single_le_sum hnonneg _ (List.mem_map.mpr ⟨cat, hmem, rfl⟩)) hbounded
  have hrow := fun cat hmem => refineRow_band adjustments.seasonal_valid (hcat cat hmem)
  constructor
  · rw [refinedResponse, List.forall₂_map_right_iff, List.forall₂_same]
    intro cat hmem
    refine ⟨?_, ?_, (hrow cat hmem).1⟩
    · rw [refineRow]; split <;> rfl
    · rw [refineRow]; split <;> rfl
  · have hsum : ((baseline.categories.map (refineRow adjustments.seasonal)).map (fun r => |r.refinedForecast|)).sum ≤
        2 * (baseline.categories.map (fun c => |c.forecast|)).sum := by
      rw [List.map_map, ← List.sum_map_mul_left]
      exact List.sum_le_sum fun cat hmem => (hrow cat hmem).2
    have hfold := foldl_addAmounts
      ((baseline.categories.map (refineRow adjustments.seasonal)).map (·.refinedForecast)) 0
      (by rw [abs_zero, zero_add, List.map_map]; exact lt_of_le_of_lt hsum (by omega))
    rw [zero_add, List.foldl_map] at hfold
    exact hfold

/-- **The refinement never fails, stays in its band and does not see unusable rows, exactly
for the answers that are coercible.** -/
theorem refinement_never_fails_iff (repr : PyJson → PyText) (baseline : RefineBaseline) (parsed : PyJson) :
    NeverFails repr baseline parsed ↔ Coercible repr parsed := by
  refine ⟨fun h => validates_iff.mp h.validates, fun hc => ?_⟩
  have hvalid := validates_iff.mpr hc
  obtain ⟨coerced, adjustments, hok, hmodel⟩ := hvalid
  refine ⟨⟨coerced, adjustments, hok, hmodel⟩, ⟨refinedResponse baseline adjustments, ?_,
    refinedResponse_inBand baseline adjustments⟩, ?_, ?_⟩
  · rw [refineForecast, hok, bind_ok, hmodel]
  · intro xs row ys parsed' hlist hrow hsame
    rw [refineForecast, refineForecast, coerceAdjustments_seasonal_left_out hc hlist hrow hsame]
  · intro xs row ys parsed' hlist hrow hsame
    rw [refineForecast, refineForecast, coerceAdjustments_anomaly_left_out hc hlist hrow hsame]

/-- An answer that passes the schema, with an id that `json.loads` reads as infinite. -/
def infiniteId : PyJson :=
  .dict [(seasonalKey, .list [.dict [(categoryIdKey, .float (.infinity false))]]), (anomaliesKey, .list []),
    (confidenceKey, .float (.finite (1 / 2))), (summaryKey, .str [])]

theorem infiniteId_raises : PassesSchema infiniteId ∧ ∀ (repr : PyJson → PyText) (baseline : RefineBaseline),
    refineForecast repr baseline infiniteId = .error .overflow ∧ ¬ NeverFails repr baseline infiniteId := by
  refine ⟨?_, fun repr baseline => ⟨rfl, fun h => ?_⟩⟩
  · change ∀ key ∈ requiredKeys, key ∈ [seasonalKey, anomaliesKey, confidenceKey, summaryKey]
    decide
  · obtain ⟨coerced, adjustments, hok, -⟩ := h.validates
    cases hok

end BetterDecision
