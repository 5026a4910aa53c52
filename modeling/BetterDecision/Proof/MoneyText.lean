import BetterDecision.Proof.MoneyMask

/-!
# Texts with amounts, and without

What is written of an amount has the shape the expression takes, but for a target with an
exponent. So texts with the same words come to the same masks. A text of plain words has no
place where a match could start.
-/

namespace BetterDecision

open Patterns Pattern NumeralStyle

/-! ## How amounts are written -/

theorem isDigit_digitChar {d : Nat} (h : d < 10) : (Nat.digitChar d).isDigit = true :=
  (by decide : ∀ d < 10, (Nat.digitChar d).isDigit = true) d h

/-- A digit, and then digits and separators. -/
inductive GroupedDigits : Str → Prop
  | mk {first : Char} {run : Str} : first.isDigit = true → (∀ c ∈ run, (c.isDigit || c == ',') = true) →
      GroupedDigits (first :: run)

theorem leadDigits_grouped {n : Nat} (hn : n < 1000) : GroupedDigits (leadDigits n) := by
  unfold leadDigits threeDigits
  split
  · exact .mk (isDigit_digitChar ‹_›) nofun
  · split
    · refine .mk (isDigit_digitChar (by omega)) fun c hc => ?_
      obtain rfl := List.mem_singleton.mp hc
      simp [isDigit_digitChar (show n % 10 < 10 by omega)]
    · refine .mk (isDigit_digitChar (by omega)) fun c hc => ?_
      rcases List.mem_cons.mp hc with rfl | hc
      · simp [isDigit_digitChar (show n / 10 % 10 < 10 by omega)]
      · obtain rfl := List.mem_singleton.mp hc
        simp [isDigit_digitChar (show n % 10 < 10 by omega)]

theorem writeGrouped_grouped (n : Nat) : GroupedDigits (writeGrouped ',' n) := by
  induction n using Nat.strong_induction_on with
  | _ n ih =>
    rw [writeGrouped]
    split
    · exact leadDigits_grouped ‹_›
    · have hfront := ih (n / 1000) (by omega)
      generalize writeGrouped ',' (n / 1000) = front at hfront
      cases hfront with
      | mk hfirst hrun =>
        refine .mk hfirst fun c hc => ?_
        rcases List.mem_append.mp hc with hc | hc
        · exact hrun c hc
        · rcases List.mem_cons.mp hc with rfl | hc
          · decide
          · obtain ⟨d, hd, rfl⟩ : ∃ d < 10, c = Nat.digitChar d := by
              simp only [threeDigits, List.mem_cons, List.not_mem_nil, or_false] at hc
              rcases hc with rfl | rfl | rfl
              · exact ⟨_, by omega, rfl⟩
              · exact ⟨_, by omega, rfl⟩
              · exact ⟨_, by omega, rfl⟩
            simp [isDigit_digitChar hd]

theorem GroupedDigits.decimal {digits : Str} (h : GroupedDigits digits) (negative : Bool) {tenth hundredth : Char}
    (htenth : tenth.isDigit = true) (hhundredth : hundredth.isDigit = true) :
    DecimalText (signText negative ++ (digits ++ ['.', tenth, hundredth])) := by
  cases h with
  | mk hfirst hrun => exact .mk negative hfirst hrun htenth hhundredth

theorem formatMoney_decimal (negative : Bool) (coefficient : Nat) (exponent : Int) :
    DecimalText (formatMoney negative coefficient exponent) := by
  unfold formatMoney
  dsimp only
  rw [List.append_assoc]
  exact (writeGrouped_grouped _).decimal negative (isDigit_digitChar (by omega)) (isDigit_digitChar (by omega))

/-- Written without an exponent: not a power of ten, and not too small. -/
def PlainlyWritten (coefficient : Nat) (exponent : Int) : Prop :=
  exponent ≤ 0 ∧ -6 < exponent + (Nat.toDigits 10 coefficient).length

instance (coefficient : Nat) (exponent : Int) : Decidable (PlainlyWritten coefficient exponent) :=
  inferInstanceAs (Decidable (_ ∧ _))

/-- A decimal that is written plainly has as many decimals as its exponent has it. -/
theorem decimalStr_plain (negative : Bool) {coefficient : Nat} {exponent : Int} (h : PlainlyWritten coefficient exponent) :
    ∃ whole decimals, whole ≠ [] ∧ (∀ c ∈ whole, c.isDigit = true) ∧ (∀ c ∈ decimals, c.isDigit = true) ∧
      (decimals.length : Int) = -exponent ∧
      decimalStr negative coefficient exponent =
        signText negative ++ (whole ++ if decimals = [] then [] else '.' :: decimals) := by
  obtain ⟨hexponent, hsmall⟩ := h
  have hdigits : ∀ c ∈ Nat.toDigits 10 coefficient, c.isDigit = true :=
    fun c hc => Nat.isDigit_of_mem_toDigits (by decide) (by decide) hc
  have hlen : 0 < (Nat.toDigits 10 coefficient).length := Nat.length_toDigits_pos
  unfold decimalStr
  generalize Nat.toDigits 10 coefficient = digits at hsmall hdigits hlen
  have hplace : (if exponent ≤ 0 ∧ -6 < exponent + digits.length then exponent + digits.length else 1) =
      exponent + digits.length := if_pos ⟨hexponent, hsmall⟩
  dsimp only
  rw [hplace, sub_self, if_pos rfl, List.append_nil]
  have hzeros : ∀ n, ∀ c ∈ List.replicate n '0', c.isDigit = true := fun n c hc =>
    (List.eq_of_mem_replicate hc) ▸ by decide
  by_cases hbefore : exponent + digits.length ≤ 0
  · -- all the digits are decimals
    refine ⟨['0'], List.replicate (-(exponent + digits.length)).toNat '0' ++ digits, List.cons_ne_nil _ _,
      fun c hc => List.mem_singleton.mp hc ▸ rfl, ?_, ?_, ?_⟩
    · intro c hc
      exact (List.mem_append.mp hc).elim (hzeros _ c) (hdigits c)
    · rw [List.length_append, List.length_replicate]
      omega
    · have hne : List.replicate (-(exponent + digits.length)).toNat '0' ++ digits ≠ [] := fun hnil => by
        rw [(List.append_eq_nil_iff.mp hnil).2] at hlen
        exact absurd hlen (by decide)
      rw [if_pos hbefore, if_pos hbefore, if_neg hne, List.append_assoc]
  · rw [if_neg hbefore, if_neg hbefore]
    by_cases hwhole : (digits.length : Int) ≤ exponent + digits.length
    · -- none is
      have hzero : exponent = 0 := by omega
      subst hzero
      refine ⟨digits, [], List.ne_nil_of_length_pos hlen, hdigits, nofun, by simp, ?_⟩
      simp
    · have htake : (exponent + digits.length).toNat < digits.length := by omega
      refine ⟨digits.take (exponent + digits.length).toNat, digits.drop (exponent + digits.length).toNat, ?_,
        fun c hc => hdigits c (List.mem_of_mem_take hc), fun c hc => hdigits c (List.mem_of_mem_drop hc), ?_, ?_⟩
      · refine List.ne_nil_of_length_pos ?_
        rw [List.length_take]
        omega
      · rw [List.length_drop]
        omega
      · have hne : digits.drop (exponent + digits.length).toNat ≠ [] := by
          refine List.ne_nil_of_length_pos ?_
          rw [List.length_drop]
          omega
        rw [if_neg hwhole, if_neg hwhole, if_neg hne, List.append_assoc]

theorem decimalStr_number (negative : Bool) {coefficient : Nat} {exponent : Int} (h : PlainlyWritten coefficient exponent) :
    NumberText (decimalStr negative coefficient exponent) := by
  obtain ⟨whole, decimals, hne, hwhole, hdecimals, -, htext⟩ := decimalStr_plain negative h
  rw [htext]
  split
  · rw [List.append_nil]
    exact .whole negative hne hwhole
  · exact .fraction negative hne hwhole ‹_› hdecimals

theorem plainlyWritten_cents (cents : Nat) : PlainlyWritten cents (-2) := by
  have hlen : 0 < (Nat.toDigits 10 cents).length := Nat.length_toDigits_pos
  exact ⟨by decide, by omega⟩

theorem decimalStr_cents (negative : Bool) (cents : Nat) : DecimalText (decimalStr negative cents (-2)) := by
  obtain ⟨whole, decimals, hne, hwhole, hdecimals, hlen, htext⟩ := decimalStr_plain negative (plainlyWritten_cents cents)
  have hlen : decimals.length = 2 := by omega
  obtain ⟨tenth, hundredth, rfl⟩ := List.length_eq_two.mp hlen
  obtain ⟨first, run, rfl⟩ := List.exists_cons_of_ne_nil hne
  rw [htext, if_neg (List.cons_ne_nil _ _)]
  refine .mk negative (hwhole first List.mem_cons_self) (fun c hc => ?_) (hdecimals _ List.mem_cons_self)
    (hdecimals _ (List.mem_cons_of_mem _ List.mem_cons_self))
  simp [hwhole c (List.mem_cons_of_mem _ hc)]

/-! ## Texts with amounts -/

/-- What may come behind an amount: the end, a space, a comma, or a period of the sentence. -/
inductive EndsAmount : Str → Prop
  | finish : EndsAmount []
  | space (rest : Str) : EndsAmount (' ' :: rest)
  | comma (rest : Str) : EndsAmount (',' :: rest)
  | period (rest : Str) : (∀ c ∈ rest.head?, c.isDigit = false) → EndsAmount ('.' :: rest)

/-- Where the mask of the amount is settled: a target is written plainly, and a grouped amount
is not behind an arrow. -/
def MoneyShape.Settled (words : Str) : MoneyShape → Prop
  | .grouped _ _ _ => ¬ arrow <:+ words
  | .plain _ _ => True
  | .moved _ _ target => PlainlyWritten target.coefficient target.exponent

/-- Each amount comes at the start or behind a space, and is settled there. -/
def Placed (start : Bool) (words : Str) : List (MoneyShape × Str) → Prop
  | [] => True
  | (amount, next) :: rest =>
    ((start = true ∧ words = []) ∨ words.getLast? = some ' ') ∧ amount.Settled words ∧ EndsAmount next ∧
      Placed false next rest

def MoneyShape.isMove : MoneyShape → Bool
  | .moved _ _ _ => true
  | _ => false

/-- The same words, and amounts of the same kind. -/
def SameWords (parts parts' : List (MoneyShape × Str)) : Prop :=
  List.Forall₂ (fun p q => p.1.isMove = q.1.isMove ∧ p.2 = q.2) parts parts'

theorem EndsAmount.stops {next : Str} (h : EndsAmount next) : Stops next := by
  cases h with
  | finish => exact ⟨nofun, nofun⟩
  | space rest =>
    refine ⟨fun c hc => ?_, nofun⟩
    obtain rfl := Option.some.inj hc
    decide
  | comma rest =>
    refine ⟨fun c hc => ?_, nofun⟩
    obtain rfl := Option.some.inj hc
    decide
  | period rest hrest =>
    refine ⟨fun c hc => ?_, fun rest' heq => ?_⟩
    · obtain rfl := Option.some.inj hc
      decide
    · obtain rfl : rest = rest' := (List.cons.inj heq).2
      exact hrest

theorem Stops.append {next : Str} (h : Stops next) (hlong : next ≠ ['.']) (hne : next ≠ []) (cs : Str) :
    Stops (next ++ cs) := by
  obtain ⟨c, rest, rfl⟩ := List.exists_cons_of_ne_nil hne
  refine ⟨h.head, fun rest' heq => ?_⟩
  obtain ⟨rfl, rfl⟩ := List.cons.inj heq
  cases rest with
  | nil => exact absurd rfl hlong
  | cons d rest => exact h.period (d :: rest) rfl

/-- The text behind an amount does not go on with it. -/
theorem stops_writtenText {next : Str} {rest : List (MoneyShape × Str)} (h : EndsAmount next) (hrest : Placed false next rest) :
    Stops (writtenText next rest) := by
  cases rest with
  | nil => exact h.stops
  | cons part rest =>
    obtain ⟨hlast, -⟩ := hrest
    have hlast : next.getLast? = some ' ' := hlast.resolve_left fun h => nomatch h.1
    have hne : next ≠ [] := fun hnil => absurd (hnil ▸ hlast) (by decide)
    have hlong : next ≠ ['.'] := fun hdot => absurd (hdot ▸ hlast) (by decide)
    rw [writtenText, List.append_assoc]
    exact h.stops.append hlong hne _

theorem stops_space (cs : Str) : Stops (' ' :: cs) := (EndsAmount.space cs).stops

/-- What is left of an amount. -/
def maskOf (isMove : Bool) : Str := if isMove then balanceMask ++ ' ' :: arrow ++ balanceMask else balanceMask

/-- **An amount in its place leaves the mask**, and how many masks tells only of its kind. -/
theorem maskFrom_amount {start : Bool} {words : Str} {amount : MoneyShape} {cs : Str}
    (hwords : (start = true ∧ words = []) ∨ words.getLast? = some ' ') (h : amount.Settled words) (hcs : Stops cs) :
    maskFrom start 0 (words ++ (amount.text ++ cs)) =
      beforeAmount start words ++ maskOf amount.isMove ++ maskFrom false 0 cs := by
  cases amount with
  | grouped negative coefficient exponent =>
    exact maskFrom_words hwords (formatMoney_decimal _ _ _) (fun h' => absurd h' h) hcs
  | plain negative cents =>
    exact maskFrom_words hwords (decimalStr_cents _ _) (fun _ => decimalStr_number _ (plainlyWritten_cents _)) hcs
  | moved negative cents target =>
    have hold := maskFrom_words hwords (decimalStr_cents negative cents)
      (fun _ => decimalStr_number _ (plainlyWritten_cents _))
      (stops_space (arrow ++ (decimalStr target.negative target.coefficient target.exponent ++ cs)))
    rw [maskFrom_space_arrow, maskFrom_arrow (decimalStr_number target.negative h) hcs] at hold
    have htext : MoneyShape.text (.moved negative cents target) ++ cs = decimalStr negative cents (-2) ++
        ' ' :: (arrow ++ (decimalStr target.negative target.coefficient target.exponent ++ cs)) := by
      simp [MoneyShape.text]
    rw [htext, hold]
    simp [maskOf, MoneyShape.isMove]

theorem maskFrom_same {parts parts' : List (MoneyShape × Str)} (hsame : SameWords parts parts') (start : Bool) (words : Str)
    (h : Placed start words parts) (h' : Placed start words parts') :
    maskFrom start 0 (writtenText words parts) = maskFrom start 0 (writtenText words parts') := by
  induction hsame generalizing start words with
  | nil => rfl
  | @cons part part' parts parts' hpart _ ih =>
    obtain ⟨hwords, hsettled, hends, hrest⟩ := h
    obtain ⟨hwords', hsettled', hends', hrest'⟩ := h'
    obtain ⟨hkind, hnext⟩ := hpart
    have hlater := ih false part.2 hrest (hnext ▸ hrest')
    have hstops := stops_writtenText hends hrest
    have hstops' := stops_writtenText hends' hrest'
    obtain ⟨amount, next⟩ := part
    obtain ⟨amount', next'⟩ := part'
    dsimp only at hnext
    subst hnext
    rw [writtenText, writtenText, List.append_assoc, List.append_assoc, maskFrom_amount hwords hsettled hstops,
      maskFrom_amount hwords' hsettled' hstops']
    dsimp only at hkind hlater
    rw [hkind, hlater]

/-! ## Texts without amounts -/

/-- No number with two decimals starts here that the text does not go on with. -/
def Unmatched (cs : Str) : Prop :=
  ∀ first run tenth hundredth rest, cs = first :: (run ++ '.' :: tenth :: hundredth :: rest) → first.isDigit = true →
    (∀ c ∈ run, (c.isDigit || c == ',') = true) → tenth.isDigit = true → hundredth.isDigit = true →
    goesOn.behind rest ≠ none

theorem decimalRests_nil {cs : Str} (h : Unmatched cs) (hminus : ∀ rest, cs = '-' :: rest → Unmatched rest) :
    decimalRests cs = [] := by
  refine List.filter_eq_nil_iff.mpr fun rest hrest => ?_
  have hsome : goesOn.behind rest ≠ none := by
    unfold decimalAmount at hrest
    obtain ⟨cs', hsign, hbody⟩ := mem_rests_seq.mp hrest
    obtain ⟨mid, hone, hmore⟩ := mem_rests_seq.mp hbody
    obtain ⟨first, hcs, hfirst⟩ := mem_rests_one hone
    obtain ⟨mid', hmany, hpointed⟩ := mem_rests_seq.mp hmore
    obtain ⟨run, hmid, hrun, -, -⟩ := mem_rests_many hmany
    obtain ⟨mid'', hpoint, hlast⟩ := mem_rests_seq.mp hpointed
    obtain ⟨point, hmid', hpoint⟩ := mem_rests_one hpoint
    obtain rfl : point = '.' := by simpa using hpoint
    obtain ⟨decimals, hmid'', hdecimals, hleast, hmost⟩ := mem_rests_many hlast
    subst hmid'' hmid' hmid hcs
    have hlen : decimals.length = 2 := le_antisymm (hmost 2 rfl) hleast
    obtain ⟨tenth, hundredth, rfl⟩ := List.length_eq_two.mp hlen
    have htenth := hdecimals tenth List.mem_cons_self
    have hhundredth := hdecimals hundredth (List.mem_cons_of_mem _ List.mem_cons_self)
    rw [minusSign_rests] at hsign
    -- with its sign, or without one
    split at hsign
    · rename_i hhead
      rcases List.mem_cons.mp hsign with hsign | hsign
      · obtain ⟨rest', rfl⟩ := List.head?_eq_some_iff.mp hhead
        exact hminus rest' rfl first run tenth hundredth rest hsign.symm hfirst hrun htenth hhundredth
      · exact h first run tenth hundredth rest (List.mem_singleton.mp hsign).symm hfirst hrun htenth hhundredth
    · exact h first run tenth hundredth rest (List.mem_singleton.mp hsign).symm hfirst hrun htenth hhundredth
  simpa [Option.isNone_iff_eq_none] using hsome

/-- No amount starts behind a character that may lead one. `lead` is whether one is in front. -/
def Unpriced (lead : Bool) : Str → Prop
  | [] => True
  | c :: cs => (lead = true → Unmatched (c :: cs)) ∧ Unpriced (leadsAmount c) cs

theorem Unpriced.unmatched {cs : Str} (h : Unpriced true cs) : Unmatched cs := by
  cases cs with
  | nil => exact fun _ _ _ _ _ h => nomatch h
  | cons c cs => exact h.1 rfl

theorem Unpriced.decimalRests {cs : Str} (h : Unpriced true cs) : decimalRests cs = [] := by
  refine decimalRests_nil h.unmatched fun rest hrest => ?_
  subst hrest
  exact Unpriced.unmatched h.2

/-- A digit, or a minus sign and a digit. -/
def startsNumber (cs : Str) : Bool := (if cs.head? = some '-' then cs.tail else cs).head?.any Char.isDigit

theorem arrowAmount_rests_nil {cs : Str} (h : startsNumber cs = false) : arrowAmount.rests cs = [] := by
  have hnone : ∀ c ∈ (if cs.head? = some '-' then cs.tail else cs).head?, c.isDigit = false := by
    intro c hc
    unfold startsNumber at h
    rw [hc] at h
    exact h
  unfold arrowAmount
  rw [rests, minusSign_rests]
  split at hnone
  · rename_i hsign
    have hminus : ∀ c ∈ cs.head?, c.isDigit = false := fun c hc => Option.some.inj (hsign.symm.trans hc) ▸ by decide
    rw [if_pos hsign, List.flatMap_cons, List.flatMap_cons, digits_seq_rests_nil hnone, digits_seq_rests_nil hminus]
    rfl
  · rename_i hsign
    rw [if_neg hsign, List.flatMap_cons, digits_seq_rests_nil hnone]
    rfl

/-- **A text with neither is left as it is.** -/
theorem maskFrom_unpriced {text : Str} (h : Unpriced true text)
    (harrow : ∀ a b, text = a ++ arrow ++ b → startsNumber b = false) : maskFrom true 0 text = text := by
  have hlater : ∀ b a start lead, text = a ++ b → (start = true → lead = true) → Unpriced lead b → maskFrom start 0 b = b := by
    intro b
    induction b with
    | nil => exact fun _ _ _ _ _ _ => rfl
    | cons c b ih =>
      intro a start lead htext hstart hb
      have hnone : moneyMatches start (c :: b) = [] := by
        have hfirst : (if arrow <+: c :: b then (arrowAmount.rests ((c :: b).drop 3)).map (arrow, ·) else []) = [] := by
          split
          · rename_i hprefix
            obtain ⟨rest, hrest⟩ := hprefix
            have hnumber := harrow a rest (by rw [htext, ← hrest, List.append_assoc])
            have hdrop : (arrow ++ rest).drop 3 = rest := rfl
            rw [← hrest, hdrop, arrowAmount_rests_nil hnumber]
            rfl
          · rfl
        have hsecond : (if start then (decimalRests (c :: b)).map (([] : Str), ·) else []) = [] := by
          split
          · rename_i hs
            obtain rfl := hstart hs
            rw [hb.decimalRests]
            rfl
          · rfl
        have hthird : (if leadsAmount c then (decimalRests b).map ([c], ·) else []) = [] := by
          split
          · rename_i hc
            rw [(hc ▸ hb.2 : Unpriced true b).decimalRests]
            rfl
          · rfl
        unfold moneyMatches
        dsimp only
        rw [hfirst, hsecond, hthird]
        rfl
      rw [maskFrom_pass (by rw [hnone]; rfl),
        ih (a ++ [c]) false (leadsAmount c) (by rw [htext, List.append_assoc]; rfl) nofun hb.2]
  exact hlater text [] true true rfl (fun _ => rfl) h

/-! ### Words -/

/-- A word without a period, a date or a version, or a percentage, in marks that are neither
digits nor periods. -/
inductive PlainWord : Str → Prop
  | noPeriod {word : Str} : '.' ∉ word → PlainWord word
  /-- Three groups of digits, or more. -/
  | dotted {front first second more back : Str} {third : Char} : (∀ c ∈ front, leadsAmount c = true) → first ≠ [] →
      (∀ c ∈ first, c.isDigit = true) → (∀ c ∈ second, c.isDigit = true) → third.isDigit = true →
      (∀ c ∈ more, (c.isDigit || c == '.') = true) → (∀ c ∈ back, c.isDigit = false) →
      PlainWord (front ++ (first ++ '.' :: (second ++ ('.' :: third :: more ++ back))))
  | percentage {front first second back : Str} : (∀ c ∈ front, leadsAmount c = true) → first ≠ [] →
      (∀ c ∈ first, c.isDigit = true) → (∀ c ∈ second, c.isDigit = true) → (∀ c ∈ back, c.isDigit = false) →
      PlainWord (front ++ (first ++ '.' :: (second ++ '%' :: back)))

theorem unmatched_of_no_digit {cs : Str} (h : ∀ c ∈ cs.head?, c.isDigit = false) : Unmatched cs := by
  intro first run tenth hundredth rest hcs hfirst
  subst hcs
  exact absurd hfirst (by simp [h first rfl])

theorem unpriced_of_no_digits (lead : Bool) {cs : Str} (h : ∀ c ∈ cs, c.isDigit = false) : Unpriced lead cs := by
  induction cs generalizing lead with
  | nil => trivial
  | cons c cs ih =>
    refine ⟨fun _ => unmatched_of_no_digit fun d hd => ?_, ih _ fun d hd => h d (List.mem_cons_of_mem _ hd)⟩
    obtain rfl := Option.some.inj hd
    exact h c List.mem_cons_self

theorem leads_not_digit {c : Char} (h : leadsAmount c = true) : c.isDigit = false := by
  unfold leadsAmount at h
  by_contra hdigit
  simp [hdigit] at h

theorem unpriced_leads {front rest : Str} (h : ∀ c ∈ front, leadsAmount c = true) (hrest : Unpriced true rest) :
    Unpriced true (front ++ rest) := by
  induction front with
  | nil => exact hrest
  | cons c front ih =>
    have hc := h c List.mem_cons_self
    refine ⟨fun _ => unmatched_of_no_digit fun d hd => ?_, ?_⟩
    · obtain rfl := Option.some.inj hd
      exact leads_not_digit hc
    · rw [hc]
      exact ih fun d hd => h d (List.mem_cons_of_mem _ hd)

/-- Behind a digit or a period nothing starts. -/
theorem unpriced_numbers {xs rest : Str} (h : ∀ c ∈ xs, (c.isDigit || c == '.') = true) (hrest : Unpriced false rest) :
    Unpriced false (xs ++ rest) := by
  induction xs with
  | nil => exact hrest
  | cons c xs ih =>
    have hc : leadsAmount c = false := by
      unfold leadsAmount
      rw [h c List.mem_cons_self]
      rfl
    refine ⟨nofun, ?_⟩
    rw [hc]
    exact ih fun d hd => h d (List.mem_cons_of_mem _ hd)

theorem number_of_digits {xs : Str} (h : ∀ c ∈ xs, c.isDigit = true) : ∀ c ∈ xs, (c.isDigit || c == '.') = true :=
  fun c hc => by simp [h c hc]

theorem goesOn_of_digit {c : Char} (cs : Str) (h : (c.isDigit || c == '%') = true) : goesOn.behind (c :: cs) ≠ none := by
  have hone : (one fun c => c.isDigit || c == '%').behind (c :: cs) = some cs := behind_one cs h
  unfold goesOn
  rw [behind_alt_left _ hone]
  exact nofun

theorem goesOn_of_period {c : Char} (cs : Str) (h : c.isDigit = true) : goesOn.behind ('.' :: c :: cs) ≠ none := by
  have hfirst : (one fun c => c.isDigit || c == '%').rests ('.' :: c :: cs) = [] := rfl
  unfold goesOn
  rw [behind_alt_right hfirst, behind_seq (behind_one _ (by decide)) (behind_one cs h)]
  exact nofun

/-- A number with decimals that goes on is no amount. -/
theorem unmatched_number {first second stop : Str} (hfirst : ∀ c ∈ first, c.isDigit = true)
    (hsecond : ∀ c ∈ second, c.isDigit = true) (hstop : ∀ c ∈ stop.head?, c.isDigit = false)
    (hgoesOn : goesOn.behind stop ≠ none) : Unmatched (first ++ '.' :: (second ++ stop)) := by
  intro f run tenth hundredth rest heq hf hrun htenth hhundredth
  have hfree : ∀ xs : Str, (∀ c ∈ xs, (c.isDigit || c == ',') = true) → ∀ rest, (xs ++ '.' :: rest).dropWhile (· ≠ '.') = '.' :: rest := by
    intro xs hxs rest
    rw [List.dropWhile_append_of_pos fun c hc => ?_]
    · rfl
    · have hc := hxs c hc
      refine decide_eq_true fun hdot => ?_
      subst hdot
      exact absurd hc (by decide)
  -- both sides from their first period on
  have hleft := hfree first (fun c hc => by simp [hfirst c hc]) (second ++ stop)
  have hright := hfree (f :: run) (fun c hc => (List.mem_cons.mp hc).elim (fun h => by simp [h, hf]) (hrun c))
    (tenth :: hundredth :: rest)
  rw [heq] at hleft
  have htail := (List.cons.inj (hleft.symm.trans hright)).2
  match second, hsecond with
  | [], _ =>
    rw [List.nil_append] at htail
    exact absurd (hstop tenth (by rw [htail]; rfl)) (by simp [htenth])
  | [x], _ =>
    have hrest : stop = hundredth :: rest := (List.cons.inj htail).2
    exact absurd (hstop hundredth (by rw [hrest]; rfl)) (by simp [hhundredth])
  | x :: y :: more, hsecond =>
    have hrest : more ++ stop = rest := (List.cons.inj (List.cons.inj htail).2).2
    cases more with
    | nil =>
      rw [List.nil_append] at hrest
      rwa [← hrest]
    | cons d more =>
      rw [← hrest]
      exact goesOn_of_digit _ (by simp [hsecond d (by simp)])

theorem unpriced_number {front first second stop : Str} (hfront : ∀ c ∈ front, leadsAmount c = true) (hne : first ≠ [])
    (hfirst : ∀ c ∈ first, c.isDigit = true) (hsecond : ∀ c ∈ second, c.isDigit = true)
    (hstop : ∀ c ∈ stop.head?, c.isDigit = false) (hgoesOn : goesOn.behind stop ≠ none) (hrest : Unpriced false stop) :
    Unpriced true (front ++ (first ++ '.' :: (second ++ stop))) := by
  have hhere := unmatched_number hfirst hsecond hstop hgoesOn
  refine unpriced_leads hfront ?_
  obtain ⟨c, digits, rfl⟩ := List.exists_cons_of_ne_nil hne
  have hc : leadsAmount c = false := by simp [leadsAmount, hfirst c List.mem_cons_self]
  refine ⟨fun _ => hhere, ?_⟩
  rw [hc]
  refine unpriced_numbers (number_of_digits fun d hd => hfirst d (List.mem_cons_of_mem _ hd)) ⟨nofun, ?_⟩
  exact unpriced_numbers (number_of_digits hsecond) hrest

theorem PlainWord.unpriced {word : Str} (h : PlainWord word) : Unpriced true word := by
  cases h with
  | noPeriod hno =>
    have hall : ∀ cs : Str, cs ⊆ word → ∀ lead, Unpriced lead cs := by
      intro cs
      induction cs with
      | nil => exact fun _ _ => trivial
      | cons c cs ih =>
        intro hsub lead
        refine ⟨fun _ first run tenth hundredth rest heq _ _ _ _ => ?_, ih (fun d hd => hsub (List.mem_cons_of_mem c hd)) _⟩
        exact absurd (hsub (by rw [heq]; simp)) hno
    exact hall word (List.Subset.refl _) true
  | @dotted front first second more back third hfront hne hfirst hsecond hthird hmore hback =>
    refine unpriced_number hfront hne hfirst hsecond (fun c hc => Option.some.inj hc ▸ by decide) ?_ ?_
    · exact goesOn_of_period _ hthird
    · refine @unpriced_numbers ('.' :: third :: more) back (fun c hc => ?_) (unpriced_of_no_digits false hback)
      rcases List.mem_cons.mp hc with rfl | hc
      · decide
      · rcases List.mem_cons.mp hc with rfl | hc
        · simp [hthird]
        · exact hmore c hc
  | @percentage front first second back hfront hne hfirst hsecond hback =>
    refine unpriced_number hfront hne hfirst hsecond (fun c hc => Option.some.inj hc ▸ by decide) ?_ ?_
    · exact goesOn_of_digit _ (by decide)
    · exact ⟨nofun, unpriced_of_no_digits _ hback⟩

/-- Behind a space a text begins anew. -/
theorem Unmatched.space {cs : Str} (h : Unmatched cs) (tail : Str) : Unmatched (cs ++ ' ' :: tail) := by
  intro first run tenth hundredth rest heq hfirst hrun htenth hhundredth
  have hsplit : cs ++ ' ' :: tail = (first :: (run ++ ['.', tenth, hundredth])) ++ rest := by simp [heq]
  have hspace : ' ' ∉ first :: (run ++ ['.', tenth, hundredth]) := by
    intro hmem
    simp only [List.mem_cons, List.mem_append, List.not_mem_nil, or_false] at hmem
    rcases hmem with rfl | hmem | hmem | rfl | rfl
    · exact absurd hfirst (by decide)
    · exact absurd (hrun _ hmem) (by decide)
    · exact absurd hmem (by decide)
    · exact absurd htenth (by decide)
    · exact absurd hhundredth (by decide)
  rcases List.append_eq_append_iff.mp hsplit with ⟨more, hcs, htail⟩ | ⟨more, hcs, hrest⟩
  · cases more with
    | nil =>
      have hnone : goesOn.behind [] = none := rfl
      exact absurd hnone (h first run tenth hundredth [] (by simpa using hcs.symm) hfirst hrun htenth hhundredth)
    | cons c more =>
      obtain ⟨rfl, -⟩ := List.cons.inj htail
      exact absurd (by rw [hcs]; simp) hspace
  · have hgoes := h first run tenth hundredth more (by simpa using hcs) hfirst hrun htenth hhundredth
    rw [hrest, Pattern.behind, (seam_space tail).goesOn, List.head?_map]
    intro hnone
    exact hgoes (Option.map_eq_none_iff.mp hnone)

theorem Unpriced.space {lead : Bool} {cs tail : Str} (h : Unpriced lead cs) (htail : Unpriced true tail) :
    Unpriced lead (cs ++ ' ' :: tail) := by
  induction cs generalizing lead with
  | nil => exact ⟨fun _ => unmatched_of_no_digit fun c hc => Option.some.inj hc ▸ by decide, htail⟩
  | cons c cs ih => exact ⟨fun hlead => (h.1 hlead).space tail, ih h.2⟩

theorem unpriced_words {words : List Str} (h : ∀ word ∈ words, PlainWord word) : Unpriced true ([' '].intercalate words) := by
  induction words with
  | nil => trivial
  | cons word words ih =>
    have hword := (h word List.mem_cons_self).unpriced
    have hrest := ih fun w hw => h w (List.mem_cons_of_mem _ hw)
    cases words with
    | nil => simpa [List.intercalate] using hword
    | cons next words =>
      have hjoin : [' '].intercalate (word :: next :: words) = word ++ ' ' :: [' '].intercalate (next :: words) := by
        simp [List.intercalate]
      rw [hjoin]
      exact hword.space hrest

/-! ## The result -/

/-- `1E+3` and `7400.5`, as they may be sent. -/
def thousandTarget : TargetBalance := ⟨false, 1, 3, by decide +kernel⟩

def plainTarget : TargetBalance := ⟨false, 74005, -1, by decide +kernel⟩

end BetterDecision
