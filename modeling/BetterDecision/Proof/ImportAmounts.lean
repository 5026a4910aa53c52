import BetterDecision.Model.ImportParser

/-!
# The amounts of a bank file

`_parse_amount` takes every period out of a text and puts a point in the place of the comma before
the constructor of a `Decimal` reads it. So it reads the European format, and it reads every other
text that becomes a numeral: periods anywhere, an exponent, underscores, digits of other scripts,
no digit on one side of the comma, and any number of decimals that are zeros. Such a text is not
refused, and a period for a decimal point makes an amount a hundred times what was written.
-/

namespace BetterDecision

open NumeralStyle

variable {text digits : Str} {x : ℚ} {negative : Bool} {n : Nat} {e : Int} {d : Decimal}

/-! ## The European format -/

/-- The digits, and a comma before the decimals. -/
def europeanStyle : NumeralStyle where
  digit? c := if c.isDigit then some (c.toNat - 48) else none
  point := ','
  digit_mark := by simp
  point_mark := by decide

/-- A sign, digits with a period before every third one from the end or none, and a comma with one or
two decimals or none; and the amount it is written for. -/
inductive European : Str → ℚ → Prop
  | mk {sign whole digits behind fraction : Str} {negative : Bool} : SignText sign negative →
      europeanStyle.Grouped '.' whole digits → europeanStyle.FractionText behind fraction →
      (behind ≠ [] → fraction ≠ []) → fraction.length ≤ moneyDecimalPlaces →
      European (sign ++ (whole ++ behind))
        (numeralValue negative (europeanStyle.value (digits ++ fraction)) (-fraction.length))

/-- The text without the blanks around it, and then without the double quotes around it. -/
def trimmed (value : Str) : Str := Str.stripMark '"' (Str.strip value)

/-- The amount in the European format. -/
def renderEuropean (cents : Int) : Str :=
  (if cents < 0 then ['-'] else []) ++ (writeGrouped '.' (cents.natAbs / 100) ++
    ',' :: [Nat.digitChar (cents.natAbs / 10 % 10), Nat.digitChar (cents.natAbs % 10)])

/-- What it is to read one text as the format has it: an amount is read where there is one, and nothing
else is. -/
structure ReadAsEuropean (value : Str) : Prop where
  accepts : ∀ x, European (trimmed value) x → FitsMoney x → ∃ d, parseAmount value = .ok d ∧ d.toRat = some x
  refuses : ∀ d, parseAmount value = .ok d → ∃ x, European (trimmed value) x ∧ FitsMoney x ∧ d.toRat = some x

/-! ## Other texts that are read -/

/-- A comma for the point, and digits of any script. -/
def looseStyle : NumeralStyle where
  digit? := decimalDigit?
  point := ','
  digit_mark := by simp [decimalDigit?, decimalZeros]
  point_mark := by decide

/-- The text without its periods and underscores, and without blanks around it. -/
def bare (text : Str) : Str := (Str.strip (text.filter (· ≠ '.'))).filter (· ≠ '_')

/-- The text is a number of money once its periods, underscores and blanks are gone. -/
def Loose (text : Str) (negative : Bool) (n : Nat) (e : Int) : Prop :=
  looseStyle.Numeral (bare text) negative n e ∧ representable n e ∧ FitsMoney (numeralValue negative n e)

/-- The text is such a number, and it is not in the format. -/
def Misread (text : Str) : Prop := (∃ negative n e, Loose text negative n e) ∧ ¬ ∃ x, European text x


/-! ## What is read -/

theorem replaceChar_invisible {c : Char} {p : Char → Bool} (h : p ',' = p '.') : p (replaceChar ',' '.' c) = p c := by
  unfold replaceChar
  split
  · rename_i hc
    rw [hc, h]
  · rfl

/-- The blanks and the underscores are the same before and after the comma is a point. -/
theorem decimal_bare (text : Str) :
    (Str.strip ((text.filter (· ≠ '.')).map (replaceChar ',' '.'))).filter (· ≠ '_') =
      (bare text).map (replaceChar ',' '.') := by
  have hspace : isSpace ∘ replaceChar ',' '.' = isSpace := funext fun c => replaceChar_invisible (by decide)
  have hunderscore : (fun c => decide (c ≠ '_')) ∘ replaceChar ',' '.' = fun c => decide (c ≠ '_') :=
    funext fun c => replaceChar_invisible (p := fun c => decide (c ≠ '_')) (by decide)
  rw [Str.strip, trim_map, hspace, List.filter_map, hunderscore]
  rfl

theorem not_mem_bare : '.' ∉ bare text := by
  intro h
  have hfiltered := mem_of_mem_trim (List.mem_of_mem_filter h)
  simp at hfiltered

/-- A point in the place of the comma and back. -/
theorem replaceChar_back {cs : Str} (h : '.' ∉ cs) : (cs.map (replaceChar ',' '.')).map (replaceChar '.' ',') = cs := by
  rw [List.map_map]
  refine (List.map_congr_left fun c hc => ?_).trans (List.map_id cs)
  have hne : c ≠ '.' := fun heq => h (heq ▸ hc)
  by_cases hcomma : c = ','
  · subst hcomma
    rfl
  · simp [replaceChar, hcomma, hne]

theorem read_bare_iff : decimalStyle.read ((bare text).map (replaceChar ',' '.')) = some (negative, n, e) ↔
    looseStyle.Numeral (bare text) negative n e := by
  have hin : decimalStyle.DigitsIn looseStyle := fun _ _ hd => hd
  have hout : looseStyle.DigitsIn decimalStyle := fun _ _ hd => hd
  rw [read_iff]
  constructor
  · intro h
    have hloose : looseStyle.Numeral (((bare text).map (replaceChar ',' '.')).map (replaceChar '.' ',')) negative n e :=
      h.replace hin
    rwa [replaceChar_back not_mem_bare] at hloose
  · intro h
    exact h.replace hout

theorem specialOf_not_number : ∀ d, specialOf text = some d → d.toRat = none := by
  intro d h
  simp only [specialOf] at h
  split at h
  · obtain rfl := Option.some.inj h
    rfl
  split at h
  · obtain rfl := Option.some.inj h
    rfl
  split at h
  · obtain rfl := Option.some.inj h
    rfl
  · cases h

/-- **The amounts that are read.** -/
theorem parseAmount_iff (value : Str) : parseAmount value = .ok d ↔
    ∃ negative n e, Loose (trimmed value) negative n e ∧ d = .finite negative n e := by
  have htrimmed : Str.stripMark '"' (Str.strip value) = trimmed value := rfl
  unfold parseAmount
  simp only [htrimmed, decimalOf, decimal_bare]
  cases hread : decimalStyle.read ((bare (trimmed value)).map (replaceChar ',' '.')) with
  | none =>
    have hno : ¬ ∃ negative n e, Loose (trimmed value) negative n e ∧ d = .finite negative n e := by
      rintro ⟨negative, n, e, h, -⟩
      rw [read_bare_iff.mpr h.1] at hread
      cases hread
    refine iff_of_false ?_ hno
    cases hspecial : specialOf ((bare (trimmed value)).map (replaceChar ',' '.')) with
    | none => simp
    | some special => simp [checkAmountInRange, moneyOrNone, specialOf_not_number special hspecial]
  | some found =>
    obtain ⟨negative, n, e⟩ := found
    have hnumeral := read_bare_iff.mp hread
    have hunique : (∃ negative n e, Loose (trimmed value) negative n e ∧ d = .finite negative n e) ↔
        (representable n e ∧ FitsMoney (numeralValue negative n e)) ∧ d = .finite negative n e := by
      constructor
      · rintro ⟨negative', n', e', ⟨h, hfits⟩, hd⟩
        obtain ⟨rfl, rfl, rfl⟩ : negative = negative' ∧ n = n' ∧ e = e' := by
          simpa using hread.symm.trans (read_bare_iff.mpr h)
        exact ⟨hfits, hd⟩
      · rintro ⟨hfits, hd⟩
        exact ⟨negative, n, e, ⟨hnumeral, hfits⟩, hd⟩
    rw [hunique]
    by_cases hrep : representable n e
    · by_cases hmoney : FitsMoney (numeralValue negative n e)
      · simp [hrep, checkAmountInRange, moneyOrNone, Decimal.toRat, hmoney, eq_comm]
      · simp [hrep, checkAmountInRange, moneyOrNone, Decimal.toRat, hmoney]
    · simp [hrep]

/-! ## Texts in the format are read -/

theorem digit_toNat {c : Char} (h : europeanStyle.isDigit c) : 48 ≤ c.toNat ∧ c.toNat ≤ 57 := by
  have hdigit : c.isDigit = true := by
    by_contra hno
    simp [isDigit, europeanStyle, hno] at h
  simp only [Char.isDigit, Bool.and_eq_true, decide_eq_true_eq, UInt32.le_iff_toNat_le] at hdigit
  exact hdigit

theorem european_digitsIn : europeanStyle.DigitsIn looseStyle := by
  intro c d h
  have hdigit : europeanStyle.isDigit c = true := Option.isSome_iff_exists.mpr ⟨d, h⟩
  obtain ⟨hlow, hhigh⟩ := digit_toNat hdigit
  have hd : d = c.toNat - 48 := by
    simp only [europeanStyle] at h
    split at h
    · exact (Option.some.inj h).symm
    · cases h
  simp [looseStyle, decimalDigit?, decimalZeros, hlow, hhigh, hd]

/-- A character of an amount without separators. -/
def Unmarked (c : Char) : Prop := c ∈ ['+', '-', ','] ∨ europeanStyle.isDigit c

theorem Unmarked.plain {c : Char} (h : Unmarked c) : isSpace c = false ∧ c ≠ '_' ∧ c ≠ '.' := by
  rcases h with h | h
  · simp only [List.mem_cons, List.not_mem_nil, or_false] at h
    rcases h with rfl | rfl | rfl <;> decide
  · obtain ⟨hlow, hhigh⟩ := digit_toNat h
    refine ⟨?_, ?_, ?_⟩
    · unfold isSpace
      simp
      omega
    · rintro rfl
      simp at hlow hhigh
    · rintro rfl
      simp at hlow

theorem SignText.unmarked {sign : Str} (h : SignText sign negative) : ∀ c ∈ sign, Unmarked c := by
  cases h <;> simp [Unmarked]

theorem NumeralStyle.FractionText.unmarked {behind fraction : Str} (h : europeanStyle.FractionText behind fraction) :
    europeanStyle.Digits fraction ∧ ∀ c ∈ behind, Unmarked c := by
  cases h with
  | absent => simp [Digits]
  | present hds =>
    refine ⟨hds, fun c hc => ?_⟩
    rcases List.mem_cons.mp hc with rfl | hc
    · exact .inl (by simp [europeanStyle])
    · exact .inr (hds c hc)

theorem European.unmarked (h : European text x) : ∀ c ∈ text, c ≠ '.' → Unmarked c := by
  cases h with
  | @mk sign whole digits behind fraction negative hsign hwhole hbehind hne hlen =>
  intro c hc hperiod
  simp only [List.mem_append] at hc
  rcases hc with hc | hc | hc
  · exact hsign.unmarked c hc
  · refine .inr (hwhole.digits.2 c ?_)
    rw [← hwhole.filter (show europeanStyle.isDigit '.' = false from rfl)]
    exact List.mem_filter.mpr ⟨hc, decide_eq_true hperiod⟩
  · exact hbehind.unmarked.2 c hc

/-- Without its periods a text in the format is a numeral, of the same number. -/
theorem European.numeral (h : European text x) :
    ∃ negative n e, looseStyle.Numeral (bare text) negative n e ∧ x = numeralValue negative n e ∧ -2 ≤ e ∧ e ≤ 0 := by
  have hchars := h.unmarked
  cases h with
  | @mk sign whole digits behind fraction negative hsign hwhole hbehind hne hlen =>
  have hsep : europeanStyle.isDigit '.' = false := rfl
  obtain ⟨hdigits, hunmarked⟩ := hbehind.unmarked
  obtain ⟨hsome, hds⟩ := hwhole.digits
  have hperiods : (sign ++ (whole ++ behind)).filter (· ≠ '.') = sign ++ (digits ++ behind) := by
    have hkeep : ∀ cs : Str, (∀ c ∈ cs, Unmarked c) → cs.filter (· ≠ '.') = cs := fun cs hcs =>
      List.filter_eq_self.mpr fun c hc => decide_eq_true (hcs c hc).plain.2.2
    rw [List.filter_append, List.filter_append, hwhole.filter hsep, hkeep sign hsign.unmarked, hkeep behind hunmarked]
  have hall : ∀ c ∈ sign ++ (digits ++ behind), Unmarked c := by
    intro c hc
    rw [← hperiods] at hc
    obtain ⟨hc, hperiod⟩ := List.mem_filter.mp hc
    exact hchars c hc (of_decide_eq_true hperiod)
  have hbare : bare (sign ++ (whole ++ behind)) = sign ++ (digits ++ behind) := by
    rw [bare, hperiods, Str.strip, trim_eq_self_of_forall fun c hc => (hall c hc).plain.1]
    exact List.filter_eq_self.mpr fun c hc => decide_eq_true (hall c hc).plain.2.1
  have hnumeral : europeanStyle.Numeral (sign ++ (digits ++ (behind ++ []))) negative
      (europeanStyle.value (digits ++ fraction)) (0 - fraction.length) :=
    .mk hsign hds hbehind (by simp [hsome]) .absent
  have hsame : replaceChar europeanStyle.point looseStyle.point = id := by
    funext c
    unfold replaceChar
    split
    · rename_i hc
      exact hc.symm
    · rfl
  have hloose := hnumeral.replace european_digitsIn
  rw [hsame, List.map_id, List.append_nil, ← hbare] at hloose
  unfold moneyDecimalPlaces at hlen
  exact ⟨negative, _, _, hloose, by rw [zero_sub], by omega, by omega⟩

/-- Each period of the format has three digits behind it, and a digit before the first. -/
theorem European.count_period (h : European text x) : 4 * text.count '.' < text.length := by
  cases h with
  | @mk sign whole digits behind fraction negative hsign hwhole hbehind hne hlen =>
  have hnone : ∀ cs : Str, (∀ c ∈ cs, Unmarked c) → cs.count '.' = 0 := fun cs hcs =>
    List.count_eq_zero.mpr fun hc => (hcs '.' hc).plain.2.2 rfl
  have hcount := hwhole.count_sep (show europeanStyle.isDigit '.' = false from rfl)
  simp only [List.count_append, List.length_append, hnone sign hsign.unmarked, hnone behind hbehind.unmarked.2]
  omega

/-- There is nothing to take off a text in the format. -/
theorem European.trimmed (h : European text x) : trimmed text = text := by
  have hchars : ∀ c ∈ text, isSpace c = false ∧ (c == '"') = false := by
    intro c hc
    by_cases hperiod : c = '.'
    · subst hperiod
      decide
    · have hunmarked := h.unmarked c hc hperiod
      refine ⟨hunmarked.plain.1, beq_eq_false_iff_ne.mpr ?_⟩
      rintro rfl
      rcases hunmarked with hmark | hdigit
      · simp at hmark
      · cases hdigit
  rw [BetterDecision.trimmed, Str.strip, trim_eq_self_of_forall fun c hc => (hchars c hc).1, Str.stripMark,
    trim_eq_self_of_forall fun c hc => (hchars c hc).2]

/-- An amount within the bound has few enough digits for a `Decimal`. -/
theorem representable_of_fits (hlow : -2 ≤ e) (hhigh : e ≤ 0) (h : FitsMoney (numeralValue negative n e)) :
    representable n e := by
  have hbound := h.2
  rw [abs_numeralValue] at hbound
  have hn : (n : ℚ) < 10 ^ 12 := by
    have hcent : (10 : ℚ) ^ (-2 : ℤ) ≤ 10 ^ e := zpow_le_zpow_right₀ (by norm_num) hlow
    have hmul := mul_le_mul_of_nonneg_left hcent (Nat.cast_nonneg (α := ℚ) n)
    norm_num [moneyMaxDigits, moneyDecimalPlaces] at hbound hmul
    linarith
  have hlog : Nat.log 10 n < 13 := by
    refine Nat.log_lt_of_lt_pow' (by norm_num) ?_
    have : n < 10 ^ 12 := by exact_mod_cast hn
    omega
  unfold representable
  exact decide_eq_true ⟨by omega, by omega⟩

theorem European.loose (h : European text x) (hfits : FitsMoney x) :
    ∃ negative n e, Loose text negative n e ∧ x = numeralValue negative n e := by
  obtain ⟨negative, n, e, hnumeral, rfl, hlow, hhigh⟩ := h.numeral
  exact ⟨negative, n, e, ⟨hnumeral, representable_of_fits hlow hhigh hfits, hfits⟩, rfl⟩

/-! ## The format and the reader -/

/-- What is written in the format is in it. -/
theorem european_renderEuropean (cents : Int) : European (renderEuropean cents) ((cents : ℚ) / 100) := by
  have hw : europeanStyle.Writes := by
    intro d hd
    interval_cases d <;> rfl
  obtain ⟨digits, hwhole, hvalue⟩ := writeGrouped_spec hw '.' (cents.natAbs / 100)
  have htens : cents.natAbs / 10 % 10 < 10 := by omega
  have hones : cents.natAbs % 10 < 10 := by omega
  have hdecimals : europeanStyle.Digits [Nat.digitChar (cents.natAbs / 10 % 10), Nat.digitChar (cents.natAbs % 10)] :=
    hw.digits [cents.natAbs / 10 % 10, cents.natAbs % 10] (by simp [htens, hones])
  have hsign : SignText (if cents < 0 then ['-'] else []) (decide (cents < 0)) := by
    by_cases hneg : cents < 0
    · simpa [hneg] using SignText.minus
    · simpa [hneg] using SignText.absent
  have htext := European.mk hsign hwhole (.present hdecimals) (by simp) (by simp [moneyDecimalPlaces])
  have hall : europeanStyle.value (digits ++ [Nat.digitChar (cents.natAbs / 10 % 10), Nat.digitChar (cents.natAbs % 10)]) =
      cents.natAbs := by
    rw [value_append, hvalue, hw.value_cons htens, hw.value_cons hones]
    simp [value]
    omega
  have hnumber : numeralValue (decide (cents < 0)) cents.natAbs (-2) = cents / 100 := by
    have habs : ((if cents < 0 then -1 else 1) * (cents.natAbs : ℚ)) = cents := by
      rw [Nat.cast_natAbs, Int.cast_abs]
      split
      · rename_i hneg
        rw [abs_of_neg (by exact_mod_cast hneg)]
        ring
      · rename_i hpos
        rw [abs_of_nonneg (by exact_mod_cast not_lt.mp hpos)]
        ring
    simp only [numeralValue, decide_eq_true_eq, habs]
    norm_num [div_eq_mul_inv]
  rw [hall] at htext
  rw [← hnumber]
  exact htext

end BetterDecision
