import BetterDecision.Model.MoneyText

/-!
# Hidden amounts are matched whole

The expression takes neither a space nor the arrow, so a text is masked word by word: no match
reaches from the words in front of an amount into it. An amount is matched whole, by what may
stand behind it, and then only the mask is left of it.
-/

namespace BetterDecision

open Patterns Pattern

/-! ## The shapes of an amount -/

/-- A number with two decimals. -/
inductive DecimalText : Str → Prop
  | mk (negative : Bool) {first : Char} {run : Str} {tenth hundredth : Char} : first.isDigit = true →
      (∀ c ∈ run, (c.isDigit || c == ',') = true) → tenth.isDigit = true → hundredth.isDigit = true →
      DecimalText (signText negative ++ first :: (run ++ ['.', tenth, hundredth]))

/-- A number with or without decimals. -/
inductive NumberText : Str → Prop
  | whole (negative : Bool) {digits : Str} : digits ≠ [] → (∀ c ∈ digits, c.isDigit = true) →
      NumberText (signText negative ++ digits)
  | fraction (negative : Bool) {digits decimals : Str} : digits ≠ [] → (∀ c ∈ digits, c.isDigit = true) →
      decimals ≠ [] → (∀ c ∈ decimals, c.isDigit = true) →
      NumberText (signText negative ++ (digits ++ '.' :: decimals))

/-- A text that does not go on with a number. -/
structure Stops (cs : Str) : Prop where
  head : ∀ c ∈ cs.head?, c.isDigit = false ∧ c ≠ '%'
  period : ∀ rest, cs = '.' :: rest → ∀ c ∈ rest.head?, c.isDigit = false

theorem isDigit_ne {c : Char} (h : c.isDigit = true) : c ≠ '-' ∧ c ≠ ',' ∧ c ≠ '.' := by
  refine ⟨?_, ?_, ?_⟩ <;>
  · rintro rfl
    exact absurd h (by decide)

theorem minusSign_behind (negative : Bool) {c : Char} (cs : Str) (h : c ≠ '-') :
    minusSign.behind (signText negative ++ c :: cs) = some (c :: cs) := by
  cases negative with
  | true => exact behind_optional_taken _ rfl
  | false =>
    refine behind_optional fun d hd => ?_
    obtain rfl := Option.some.inj hd
    simpa using h

theorem length_of_pos {digits : Str} (h : digits ≠ []) : 1 ≤ digits.length := List.length_pos_of_ne_nil h

/-- **A number with two decimals is matched whole.** -/
theorem DecimalText.behind {text : Str} (h : DecimalText text) (cs : Str) : decimalAmount.behind (text ++ cs) = some cs := by
  cases h with
  | @mk negative first run tenth hundredth hfirst hrun htenth hhundredth =>
    have hassoc : signText negative ++ first :: (run ++ ['.', tenth, hundredth]) ++ cs =
        signText negative ++ first :: (run ++ '.' :: ([tenth, hundredth] ++ cs)) := by simp
    rw [hassoc]
    refine behind_seq (minusSign_behind negative _ (isDigit_ne hfirst).1) ?_
    refine behind_seq (behind_one _ hfirst) ?_
    refine behind_seq (behind_many_run hrun (Nat.zero_le _) ?_) ?_
    · intro c hc
      obtain rfl := Option.some.inj hc
      decide
    · refine behind_seq (behind_one _ (by decide)) ?_
      refine @behind_many_exact _ [tenth, hundredth] cs fun c hc => ?_
      rcases List.mem_cons.mp hc with rfl | hc
      · exact htenth
      · exact List.mem_singleton.mp hc ▸ hhundredth

theorem digits_rests_nil {cs : Str} (h : ∀ c ∈ cs.head?, c.isDigit = false) : (many Char.isDigit 1 none).rests cs = [] := by
  have htake : cs.takeWhile Char.isDigit = [] := by
    cases cs with
    | nil => rfl
    | cons c cs => exact List.takeWhile_cons_of_neg (by simp [h c rfl])
  rw [rests, htake]
  rfl

/-- **A number is matched whole**, where the text does not go on with it. -/
theorem NumberText.behind {text cs : Str} (h : NumberText text) (hcs : Stops cs) :
    arrowAmount.behind (text ++ cs) = some cs := by
  have hstop : ∀ c ∈ cs.head?, c.isDigit = false := fun c hc => (hcs.head c hc).1
  cases h with
  | @whole negative digits hne hdigits =>
    obtain ⟨c, ds, rfl⟩ := List.exists_cons_of_ne_nil hne
    rw [List.append_assoc]
    refine behind_seq (minusSign_behind negative _ (isDigit_ne (hdigits c List.mem_cons_self)).1) ?_
    refine behind_seq (@behind_many_run _ 1 (c :: ds) cs hdigits (length_of_pos hne) hstop) ?_
    -- no decimals follow
    refine (behind_alt_right ?_).trans rfl
    cases cs with
    | nil => rfl
    | cons d cs =>
      rw [rests, rests]
      split
      · rename_i hpoint
        obtain rfl : d = '.' := by simpa using hpoint
        rw [List.flatMap_cons, digits_rests_nil (hcs.period cs rfl)]
        rfl
      · rfl
  | @fraction negative digits decimals hne hdigits hne' hdecimals =>
    obtain ⟨c, ds, rfl⟩ := List.exists_cons_of_ne_nil hne
    rw [List.append_assoc, List.append_assoc]
    refine behind_seq (minusSign_behind negative _ (isDigit_ne (hdigits c List.mem_cons_self)).1) ?_
    refine behind_seq (@behind_many_run _ 1 (c :: ds) _ hdigits (length_of_pos hne) ?_) ?_
    · intro d hd
      obtain rfl := Option.some.inj hd
      decide
    · refine behind_alt_left _ (behind_seq (behind_one _ (by decide)) ?_)
      exact behind_many_run hdecimals (length_of_pos hne') hstop

theorem Stops.goesOn {cs : Str} (h : Stops cs) : goesOn.behind cs = none := by
  cases cs with
  | nil => rfl
  | cons c cs =>
    obtain ⟨hdigit, hpercent⟩ := h.head c rfl
    have hfirst : (one fun c => c.isDigit || c == '%').rests (c :: cs) = [] := by
      rw [rests, if_neg (by simp [hdigit, hpercent])]
    have hsecond : (seq (one (· == '.')) (one Char.isDigit)).rests (c :: cs) = [] := by
      rw [rests, rests]
      split
      · rename_i hpoint
        obtain rfl : c = '.' := by simpa using hpoint
        rw [List.flatMap_cons, List.flatMap_nil, List.append_nil]
        cases cs with
        | nil => rfl
        | cons d cs => rw [rests, if_neg (by simp [h.period _ rfl d rfl])]
      · rfl
    rw [BetterDecision.goesOn, Pattern.behind, rests, hfirst, hsecond]
    rfl

theorem DecimalText.rests {text cs : Str} (h : DecimalText text) (hcs : Stops cs) :
    (decimalRests (text ++ cs)).head? = some cs := by
  obtain ⟨others, hothers⟩ := List.head?_eq_some_iff.mp (h.behind cs)
  rw [decimalRests, hothers, List.filter_cons_of_pos (by simp [hcs.goesOn])]
  rfl

/-! ## What a match cannot cross -/

/-- A text that is seen by no match in front of it, and where none starts. -/
structure Seam (tail : Str) : Prop where
  number : ∀ cs, arrowAmount.rests (cs ++ tail) = (arrowAmount.rests cs).map (· ++ tail)
  decimal : ∀ cs, decimalAmount.rests (cs ++ tail) = (decimalAmount.rests cs).map (· ++ tail)
  goesOn : ∀ cs, goesOn.rests (cs ++ tail) = (goesOn.rests cs).map (· ++ tail)
  start : decimalRests tail = []

theorem Seam.decimalRests {tail : Str} (h : Seam tail) (cs : Str) :
    decimalRests (cs ++ tail) = (decimalRests cs).map (· ++ tail) := by
  unfold BetterDecision.decimalRests
  rw [h.decimal, List.filter_map]
  congr 1
  refine List.filter_congr fun rest _ => ?_
  simp only [Function.comp_apply, Pattern.behind, h.goesOn, List.head?_map, Option.isNone_map]

/-- Behind a minus sign or none. -/
theorem minusSign_rests (cs : Str) :
    minusSign.rests cs = if cs.head? = some '-' then [cs.tail, cs] else [cs] := by
  unfold minusSign
  rw [rests, Option.elim_some]
  cases cs with
  | nil => rfl
  | cons c cs =>
    by_cases hc : c = '-'
    · subst hc
      have hmin : min (('-' :: cs).takeWhile (· == '-')).length 1 = 1 := by
        rw [List.takeWhile_cons_of_pos (by decide), List.length_cons]
        omega
      rw [hmin]
      rfl
    · have htake : (c :: cs).takeWhile (· == '-') = [] := List.takeWhile_cons_of_neg (by simpa using hc)
      rw [htake, List.head?_cons, if_neg (by simpa using hc)]
      rfl

/-- A number behind a sign is not there where neither a digit nor a sign is. -/
theorem seq_minusSign_rests_nil {body : Pattern} {c : Char} (hbody : ∀ c cs, c.isDigit = false → body.rests (c :: cs) = [])
    (hdigit : c.isDigit = false) (hc : c ≠ '-') (cs : Str) : (seq minusSign body).rests (c :: cs) = [] := by
  rw [rests, minusSign_rests, if_neg (by simpa using hc), List.flatMap_cons, hbody c cs hdigit]
  rfl

theorem seam_minus {body : Pattern} (hbody : ∀ c cs, c.isDigit = false → body.rests (c :: cs) = [])
    (hnil : body.rests [] = []) (havoids : body.Avoids '-') (cs tail : Str) :
    (seq minusSign body).rests (cs ++ '-' :: '>' :: tail) = ((seq minusSign body).rests cs).map (· ++ '-' :: '>' :: tail) := by
  rw [rests, rests, minusSign_rests, minusSign_rests, List.map_flatMap]
  cases cs with
  | nil =>
    -- the sign is that of the arrow
    rw [List.nil_append, List.head?_cons, if_pos rfl, List.tail_cons, List.flatMap_cons, List.flatMap_cons,
      hbody '>' tail (by decide), hbody '-' _ (by decide), List.head?_nil, if_neg (by decide), List.flatMap_cons, hnil]
    rfl
  | cons c cs =>
    rw [List.cons_append, List.head?_cons, List.head?_cons, List.tail_cons, List.tail_cons]
    have hrest : ∀ mid, body.rests (mid ++ '-' :: '>' :: tail) = (body.rests mid).map (· ++ '-' :: '>' :: tail) :=
      fun mid => havoids.rests_append mid _
    split
    · simp only [List.flatMap_cons, List.flatMap_nil, ← hrest, List.cons_append]
    · simp only [List.flatMap_cons, List.flatMap_nil, ← hrest, List.cons_append]

theorem digits_seq_rests_nil {p : Pattern} {cs : Str} (h : ∀ c ∈ cs.head?, c.isDigit = false) :
    (seq (many Char.isDigit 1 none) p).rests cs = [] := by
  rw [rests, digits_rests_nil h]
  rfl

theorem digits_rests_cons {p : Pattern} (c : Char) (cs : Str) (h : c.isDigit = false) :
    (seq (many Char.isDigit 1 none) p).rests (c :: cs) = [] :=
  digits_seq_rests_nil fun _ hd => Option.some.inj hd ▸ h

theorem one_digit_rests_cons {p : Pattern} (c : Char) (cs : Str) (h : c.isDigit = false) :
    (seq (one Char.isDigit) p).rests (c :: cs) = [] := by
  rw [rests, rests, if_neg (by simp [h])]
  rfl

theorem seam_space (tail : Str) : Seam (' ' :: tail) where
  number cs := Avoids.rests_append (by simp [arrowAmount, minusSign, Avoids]) cs tail
  decimal cs := Avoids.rests_append (by simp [decimalAmount, minusSign, Avoids]) cs tail
  goesOn cs := Avoids.rests_append (by simp [goesOn, Avoids]) cs tail
  start := by
    unfold decimalRests decimalAmount
    rw [seq_minusSign_rests_nil one_digit_rests_cons (by decide) (by decide)]
    rfl

theorem seam_arrow (tail : Str) : Seam ('-' :: '>' :: tail) where
  number cs := seam_minus digits_rests_cons rfl (by simp [Avoids]) cs tail
  decimal cs := seam_minus one_digit_rests_cons rfl (by simp [Avoids]) cs tail
  goesOn cs := Avoids.rests_append (by simp [goesOn, Avoids]) cs _
  start := by
    have hnone : decimalAmount.rests ('-' :: '>' :: tail) = [] :=
      seam_minus one_digit_rests_cons rfl (by simp [Avoids]) [] tail
    unfold decimalRests
    rw [hnone]
    rfl

/-! ## Word by word -/

theorem maskFrom_matched (k : Nat) (cs : Str) : maskFrom false k cs = maskFrom false 0 (cs.drop k) := by
  induction cs generalizing k with
  | nil =>
    rw [List.drop_nil]
    rfl
  | cons c cs ih =>
    cases k with
    | zero => rfl
    | succ k => exact ih k

/-- A match ends behind where it starts. -/
theorem length_of_mem_moneyMatches {start : Bool} {c : Char} {cs kept rest : Str}
    (h : (kept, rest) ∈ moneyMatches start (c :: cs)) : rest <:+ cs := by
  unfold moneyMatches at h
  rcases List.mem_append.mp h with h | h
  · split at h
    · obtain ⟨rest', hmem, heq⟩ := List.mem_map.mp h
      obtain rfl : rest' = rest := congrArg Prod.snd heq
      exact (suffix_of_mem_rests hmem).trans (List.drop_suffix 2 cs)
    · cases h
  · rcases List.mem_append.mp h with h | h
    · split at h
      · obtain ⟨rest', hmem, heq⟩ := List.mem_map.mp h
        obtain rfl : rest' = rest := congrArg Prod.snd heq
        -- a digit was taken
        have hmem := List.mem_of_mem_filter hmem
        unfold decimalAmount at hmem
        rw [Pattern.rests, minusSign_rests] at hmem
        obtain ⟨mid, hmid, hmem⟩ := List.mem_flatMap.mp hmem
        rw [Pattern.rests] at hmem
        obtain ⟨mid', hmid', hmem⟩ := List.mem_flatMap.mp hmem
        refine (suffix_of_mem_rests hmem).trans ?_
        split at hmid
        · rcases List.mem_cons.mp hmid with rfl | hmid
          · exact suffix_of_mem_rests hmid'
          · obtain rfl := List.mem_singleton.mp hmid
            rw [Pattern.rests] at hmid'
            split at hmid'
            · exact List.mem_singleton.mp hmid' ▸ List.suffix_rfl
            · cases hmid'
        · obtain rfl := List.mem_singleton.mp hmid
          rw [Pattern.rests] at hmid'
          split at hmid'
          · exact List.mem_singleton.mp hmid' ▸ List.suffix_rfl
          · cases hmid'
      · cases h
    · dsimp only at h
      split at h
      · obtain ⟨rest', hmem, heq⟩ := List.mem_map.mp h
        obtain rfl : rest' = rest := congrArg Prod.snd heq
        exact suffix_of_mem_rests (List.mem_of_mem_filter hmem)
      · cases h

theorem maskFrom_match {start : Bool} {c : Char} {cs kept rest : Str}
    (h : (moneyMatches start (c :: cs)).head? = some (kept, rest)) :
    maskFrom start 0 (c :: cs) = kept ++ balanceMask ++ maskFrom false 0 rest := by
  have hsuffix := length_of_mem_moneyMatches (List.mem_of_head? h)
  rw [maskFrom, h]
  dsimp only
  rw [maskFrom_matched, List.suffix_iff_eq_drop.mp hsuffix |>.symm]

theorem maskFrom_pass {start : Bool} {c : Char} {cs : Str} (h : (moneyMatches start (c :: cs)).head? = none) :
    maskFrom start 0 (c :: cs) = c :: maskFrom false 0 cs := by
  rw [maskFrom, h]

/-- The matches in front of a seam, the arrow not lying across it. -/
theorem moneyMatches_append {tail : Str} (hseam : Seam tail) (start : Bool) {cs : Str} (hne : cs ≠ [])
    (harrow : arrow <+: cs ++ tail → arrow <+: cs) :
    moneyMatches start (cs ++ tail) = (moneyMatches start cs).map fun m => (m.1, m.2 ++ tail) := by
  obtain ⟨c, cs, rfl⟩ := List.exists_cons_of_ne_nil hne
  unfold moneyMatches
  rw [List.map_append, List.map_append]
  congr 1
  · by_cases hcs : arrow <+: c :: cs
    · have hlen : 3 ≤ (c :: cs).length := hcs.length_le
      rw [if_pos (hcs.trans (List.prefix_append _ _)), if_pos hcs, List.drop_append_of_le_length hlen, hseam.number,
        List.map_map, List.map_map]
      rfl
    · rw [if_neg (fun h => hcs (harrow h)), if_neg hcs]
      rfl
  congr 1
  · split
    · rw [hseam.decimalRests, List.map_map, List.map_map]
      rfl
    · rfl
  · rw [List.cons_append]
    dsimp only
    split
    · rw [hseam.decimalRests, List.map_map, List.map_map]
      rfl
    · rfl

/-- Nothing starts at the first place of the text that does not behind a lead. -/
theorem moneyMatches_start {tail : Str} (h : decimalRests tail = []) (start : Bool) :
    moneyMatches start tail = moneyMatches false tail := by
  unfold moneyMatches
  rw [h]
  cases start <;> rfl

/-- **What lies in front of a seam is masked on its own.** -/
theorem maskFrom_append {tail : Str} (hseam : Seam tail) (start : Bool) (cs : Str)
    (harrow : ∀ s, s <:+ cs → s ≠ [] → arrow <+: s ++ tail → arrow <+: s) :
    maskFrom start 0 (cs ++ tail) = maskFrom start 0 cs ++ maskFrom false 0 tail := by
  induction hn : cs.length using Nat.strong_induction_on generalizing start cs with
  | _ n ih =>
    cases cs with
    | nil =>
      cases tail with
      | nil => rfl
      | cons t tail =>
        have hstart := moneyMatches_start hseam.start start
        rw [List.nil_append, maskFrom, maskFrom, hstart]
        rfl
    | cons c cs =>
      have hmatches := moneyMatches_append hseam start (List.cons_ne_nil c cs)
        (harrow _ List.suffix_rfl (List.cons_ne_nil c cs))
      have hlater : ∀ s, s <:+ cs → maskFrom false 0 (s ++ tail) = maskFrom false 0 s ++ maskFrom false 0 tail := by
        intro s hs
        have hlt : s.length < n := hn ▸ Nat.lt_succ_of_le hs.length_le
        exact ih s.length hlt false s (fun s' hs' => harrow s' (hs'.trans (hs.trans (List.suffix_cons c cs)))) rfl
      rcases hfirst : (moneyMatches start (c :: cs)).head? with _ | ⟨kept, rest⟩
      · have hnone : (moneyMatches start (c :: (cs ++ tail))).head? = none := by
          refine (congrArg List.head? hmatches).trans ?_
          rw [List.head?_map, hfirst]
          rfl
        rw [maskFrom_pass hfirst, List.cons_append, List.cons_append, maskFrom_pass hnone, hlater cs List.suffix_rfl]
      · have hsome : (moneyMatches start (c :: (cs ++ tail))).head? = some (kept, rest ++ tail) := by
          refine (congrArg List.head? hmatches).trans ?_
          rw [List.head?_map, hfirst]
          rfl
        have hsuffix := length_of_mem_moneyMatches (List.mem_of_head? hfirst)
        rw [maskFrom_match hfirst, List.cons_append, maskFrom_match hsome, hlater rest hsuffix]
        exact (List.append_assoc ..).symm

/-! ## An amount -/

theorem DecimalText.not_arrow {text : Str} (h : DecimalText text) (cs : Str) : ¬ arrow <+: text ++ cs := by
  cases h with
  | @mk negative first run tenth hundredth hfirst hrun htenth hhundredth =>
    intro harrow
    cases negative with
    | true =>
      have hsecond := (List.cons_prefix_cons.mp (List.cons_prefix_cons.mp harrow).2).1
      exact absurd (hsecond ▸ hfirst) (by decide)
    | false =>
      have hfirst' := (List.cons_prefix_cons.mp harrow).1
      exact absurd (hfirst' ▸ hfirst) (by decide)

/-- At the start of the text. -/
theorem maskFrom_start {text cs : Str} (h : DecimalText text) (hcs : Stops cs) :
    maskFrom true 0 (text ++ cs) = balanceMask ++ maskFrom false 0 cs := by
  have hfirst : (moneyMatches true (text ++ cs)).head? = some ([], cs) := by
    unfold moneyMatches
    rw [if_neg (h.not_arrow cs), List.nil_append, if_pos rfl, List.head?_append, List.head?_map, h.rests hcs]
    rfl
  have hne : text ++ cs ≠ [] := fun h' => absurd (h.rests hcs) (by rw [h']; exact nofun)
  obtain ⟨c, rest, hcons⟩ := List.exists_cons_of_ne_nil hne
  rw [hcons] at hfirst ⊢
  exact maskFrom_match hfirst

/-- Behind a space. -/
theorem maskFrom_space {text cs : Str} (h : DecimalText text) (hcs : Stops cs) :
    maskFrom false 0 (' ' :: (text ++ cs)) = ' ' :: balanceMask ++ maskFrom false 0 cs := by
  have hfirst : (moneyMatches false (' ' :: (text ++ cs))).head? = some ([' '], cs) := by
    have harrow : ¬ arrow <+: ' ' :: (text ++ cs) := fun h' => absurd (List.cons_prefix_cons.mp h').1 (by decide)
    unfold moneyMatches
    rw [if_neg harrow, List.nil_append, if_neg Bool.false_ne_true, List.nil_append]
    dsimp only
    rw [if_pos (by decide), List.head?_map, h.rests hcs]
    rfl
  exact maskFrom_match hfirst

/-- Behind the arrow. -/
theorem maskFrom_arrow {text cs : Str} (h : NumberText text) (hcs : Stops cs) :
    maskFrom false 0 (arrow ++ (text ++ cs)) = arrow ++ balanceMask ++ maskFrom false 0 cs := by
  have hfirst : (moneyMatches false (arrow ++ (text ++ cs))).head? = some (arrow, cs) := by
    have hdrop : (arrow ++ (text ++ cs)).drop 3 = text ++ cs := rfl
    have hnumber : (arrowAmount.rests (text ++ cs)).head? = some cs := h.behind hcs
    unfold moneyMatches
    rw [if_pos (List.prefix_append _ _), hdrop, List.head?_append, List.head?_map, hnumber]
    rfl
  exact maskFrom_match hfirst

/-- A space in front of the arrow stays. -/
theorem maskFrom_space_arrow (cs : Str) : maskFrom false 0 (' ' :: (arrow ++ cs)) = ' ' :: maskFrom false 0 (arrow ++ cs) := by
  refine maskFrom_pass ?_
  have harrow : ¬ arrow <+: ' ' :: (arrow ++ cs) := fun h' => absurd (List.cons_prefix_cons.mp h').1 (by decide)
  have hnone : decimalRests (arrow ++ cs) = [] := (seam_arrow (' ' :: cs)).start
  unfold moneyMatches
  rw [if_neg harrow, List.nil_append, if_neg Bool.false_ne_true, List.nil_append]
  dsimp only
  rw [hnone, List.map_nil, ite_self]
  rfl

theorem arrow_of_space {s tail : Str} (hne : s ≠ []) (h : arrow <+: s ++ ' ' :: tail) : arrow <+: s ∨ s = ['-', '>'] := by
  match s, hne with
  | [a], _ => exact absurd (List.cons_prefix_cons.mp (List.cons_prefix_cons.mp h).2).1 (by decide)
  | [a, b], _ =>
    have ha := (List.cons_prefix_cons.mp h).1
    have hb := (List.cons_prefix_cons.mp (List.cons_prefix_cons.mp h).2).1
    exact .inr (by rw [← ha, ← hb])
  | a :: b :: c :: s, _ =>
    exact .inl (List.prefix_of_prefix_length_le h (List.prefix_append _ _) (by simp [arrow]))

theorem arrow_of_arrow {s tail : Str} (hne : s ≠ []) (h : arrow <+: s ++ '-' :: '>' :: tail) : arrow <+: s := by
  match s, hne with
  | [a], _ => exact absurd (List.cons_prefix_cons.mp (List.cons_prefix_cons.mp h).2).1 (by decide)
  | [a, b], _ =>
    have hrest := (List.cons_prefix_cons.mp (List.cons_prefix_cons.mp h).2).2
    exact absurd (List.cons_prefix_cons.mp hrest).1 (by decide)
  | a :: b :: c :: s, _ =>
    exact List.prefix_of_prefix_length_le h (List.prefix_append _ _) (by simp [arrow])

/-- What the words in front of an amount come to. -/
def beforeAmount (start : Bool) (words : Str) : Str :=
  if words = [] then []
  else if arrow <:+ words then maskFrom start 0 (words.take (words.length - 3)) ++ arrow
  else maskFrom start 0 words.dropLast ++ [' ']

/-- **An amount behind words**, or at the start, is masked, and the words no otherwise for it. -/
theorem maskFrom_words {start : Bool} {words text cs : Str} (hwords : (start = true ∧ words = []) ∨ words.getLast? = some ' ')
    (h : DecimalText text) (hnumber : arrow <:+ words → NumberText text) (hcs : Stops cs) :
    maskFrom start 0 (words ++ (text ++ cs)) = beforeAmount start words ++ balanceMask ++ maskFrom false 0 cs := by
  unfold beforeAmount
  rcases hwords with ⟨rfl, rfl⟩ | hlast
  · rw [if_pos rfl]
    exact maskFrom_start h hcs
  · have hne : words ≠ [] := fun hnil => absurd (hnil ▸ hlast) (by decide)
    rw [if_neg hne]
    by_cases harrow : arrow <:+ words
    · obtain ⟨ws, rfl⟩ := harrow
      have htake : (ws ++ arrow).take ((ws ++ arrow).length - 3) = ws := by
        rw [List.length_append]
        exact List.take_left
      have hsplit := maskFrom_append (seam_arrow (' ' :: (text ++ cs))) start ws fun s _ hne h' => arrow_of_arrow hne h'
      rw [if_pos (List.suffix_append ws arrow), htake, List.append_assoc]
      refine hsplit.trans ?_
      rw [List.append_assoc, List.append_assoc]
      exact congrArg _ ((maskFrom_arrow (hnumber (List.suffix_append ws arrow)) hcs).trans (List.append_assoc ..))
    · obtain ⟨ws, rfl⟩ := List.getLast?_eq_some_iff.mp hlast
      have hnot : ∀ s, s <:+ ws → s ≠ [] → arrow <+: s ++ ' ' :: (text ++ cs) → arrow <+: s := by
        intro s hs hne h'
        rcases arrow_of_space hne h' with h' | rfl
        · exact h'
        · obtain ⟨front, rfl⟩ := hs
          exact absurd ⟨front, by simp [arrow]⟩ harrow
      rw [if_neg harrow, List.dropLast_concat, List.append_assoc, List.singleton_append,
        maskFrom_append (seam_space _) start ws hnot, maskFrom_space h hcs]
      simp

end BetterDecision
