import Mathlib.Data.List.Basic
import Mathlib.Data.List.TakeWhile

/-!
# Patterns of text

Regular expressions over classes of characters, matched as a backtracking engine does: what
is left of the text behind a match, in the order in which the matches are tried.
-/

namespace Patterns

inductive Pattern
  | empty
  | one (test : Char → Bool)
  | many (test : Char → Bool) (least : Nat) (most : Option Nat)
  | seq (p q : Pattern)
  | alt (p q : Pattern)
  | atEnd

namespace Pattern

/-- The texts behind the matches, the first match first. A repetition takes as many as it
can; the end is also in front of a last line break. -/
@[grind] def rests : Pattern → List Char → List (List Char)
  | .empty, cs => [cs]
  | .one _, [] => []
  | .one test, c :: cs => if test c then [cs] else []
  | .many test least most, cs =>
    let longest := (cs.takeWhile test).length
    let longest := most.elim longest (min longest)
    ((List.range (longest + 1)).reverse.filter (least ≤ ·)).map (cs.drop ·)
  | .seq p q, cs => (p.rests cs).flatMap q.rests
  | .alt p q, cs => p.rests cs ++ q.rests cs
  | .atEnd, cs => if cs = [] ∨ cs = ['\n'] then [cs] else []

@[grind] def text (cs : List Char) : Pattern := cs.foldr (fun c p => .seq (.one (· == c)) p) .empty

@[grind] def anyOf (ps : List Pattern) : Pattern := ps.foldr .alt (.one fun _ => false)

@[grind] def allOf (ps : List Pattern) : Pattern := ps.foldr .seq .empty

/-- The text behind the match, where there is one at the start. -/
@[grind] def behind (p : Pattern) (cs : List Char) : Option (List Char) := (p.rests cs).head?

/-- The text without a match at its start: `re.sub("^…", "", text, count=1)`. -/
@[grind] def cutFront (p : Pattern) (cs : List Char) : List Char := (p.behind cs).getD cs

/-- `re.sub` of a pattern that does not match the empty text: the leftmost matches that do
not overlap. -/
@[grind] def replaceAll (p : Pattern) (new : List Char) : List Char → List Char
  | [] => []
  | c :: cs =>
    match p.behind (c :: cs) with
    | some rest =>
      if rest.length < (c :: cs).length then new ++ replaceAll p new rest else c :: replaceAll p new cs
    | none => c :: replaceAll p new cs
  termination_by cs => cs.length
  decreasing_by
    · assumption
    · exact Nat.lt_succ_self _
    · exact Nat.lt_succ_self _

theorem suffix_of_mem_rests {p : Pattern} {cs rest : List Char} (h : rest ∈ p.rests cs) : rest <:+ cs := by
  induction p generalizing cs rest with
  | empty => exact List.mem_singleton.mp h ▸ List.suffix_rfl
  | one test =>
    cases cs with
    | nil => cases h
    | cons c cs =>
      rw [rests] at h
      split at h
      · exact List.mem_singleton.mp h ▸ List.suffix_cons c cs
      · cases h
  | many test least most =>
    rw [rests] at h
    obtain ⟨n, -, rfl⟩ := List.mem_map.mp h
    exact List.drop_suffix n cs
  | seq p q ihp ihq =>
    rw [rests] at h
    obtain ⟨mid, hmid, hrest⟩ := List.mem_flatMap.mp h
    exact (ihq hrest).trans (ihp hmid)
  | alt p q ihp ihq =>
    rw [rests] at h
    exact (List.mem_append.mp h).elim ihp ihq
  | atEnd =>
    rw [rests] at h
    split at h
    · exact List.mem_singleton.mp h ▸ List.suffix_rfl
    · cases h

theorem suffix_of_behind {p : Pattern} {cs rest : List Char} (h : p.behind cs = some rest) : rest <:+ cs :=
  suffix_of_mem_rests (List.mem_of_head? h)

/-- Matches taken out, what is left is in order. -/
theorem replaceAll_sublist (p : Pattern) (cs : List Char) : (p.replaceAll [] cs).Sublist cs := by
  fun_induction replaceAll p [] cs with
  | case1 => exact List.Sublist.refl _
  | case2 c cs rest hrest hlt ih => exact ih.trans (suffix_of_behind hrest).sublist
  | case3 c cs rest hrest hlt ih => exact ih.cons_cons c
  | case4 c cs hnone ih => exact ih.cons_cons c

/-- A run of one or more is matched where one starts. -/
theorem behind_many_one {test : Char → Bool} {c : Char} {cs : List Char} :
    (many test 1 none).behind (c :: cs) = if test c then some (cs.dropWhile test) else none := by
  rw [behind, rests]
  by_cases h : test c = true
  · have hlen : ((c :: cs).takeWhile test).length = (cs.takeWhile test).length + 1 := by
      rw [List.takeWhile_cons_of_pos h, List.length_cons]
    rw [if_pos h, Option.elim_none, hlen, List.range_succ, List.reverse_append, List.reverse_singleton,
      List.singleton_append, List.filter_cons_of_pos (by simp), List.map_cons, List.head?_cons, List.drop_succ_cons]
    have hcut := congrArg (List.drop (cs.takeWhile test).length) (List.takeWhile_append_dropWhile (p := test) (l := cs))
    rw [List.drop_left] at hcut
    rw [hcut]
  · have hnone : (c :: cs).takeWhile test = [] := List.takeWhile_cons_of_neg h
    rw [if_neg h, hnone]
    rfl

/-- Runs replaced, no character of a run is left that is not put there. -/
theorem mem_replaceAll_many {test : Char → Bool} {new cs : List Char} :
    ∀ c ∈ (many test 1 none).replaceAll new cs, c ∈ new ∨ (c ∈ cs ∧ test c = false) := by
  fun_induction replaceAll (many test 1 none) new cs with
  | case1 => nofun
  | case2 c cs rest hrest hlt ih =>
    intro d hd
    rcases List.mem_append.mp hd with hd | hd
    · exact .inl hd
    · exact (ih d hd).imp_right fun h => ⟨(suffix_of_behind hrest).subset h.1, h.2⟩
  | case3 c cs rest hrest hlt ih =>
    rw [behind_many_one] at hrest
    split at hrest
    · cases hrest
      exact absurd (Nat.lt_succ_of_le (List.dropWhile_sublist test).length_le) hlt
    · cases hrest
  | case4 c cs hnone ih =>
    intro d hd
    rcases List.mem_cons.mp hd with rfl | hd
    · refine .inr ⟨List.mem_cons_self, ?_⟩
      rw [behind_many_one] at hnone
      split at hnone
      · cases hnone
      · next h => simpa using h
    · exact (ih d hd).imp_right fun h => ⟨List.mem_cons_of_mem c h.1, h.2⟩

/-! ## Where a match ends -/

theorem behind_seq {p q : Pattern} {cs mid rest : List Char} (hp : p.behind cs = some mid) (hq : q.behind mid = some rest) :
    (seq p q).behind cs = some rest := by
  unfold behind at hp hq ⊢
  obtain ⟨mids, hmids⟩ := List.head?_eq_some_iff.mp hp
  obtain ⟨ends, hends⟩ := List.head?_eq_some_iff.mp hq
  rw [rests, hmids, List.flatMap_cons, hends]
  rfl

theorem behind_one {test : Char → Bool} {c : Char} (cs : List Char) (h : test c = true) :
    (one test).behind (c :: cs) = some cs := by
  rw [behind, rests, if_pos h]
  rfl

/-- The first of two that matches. -/
theorem behind_alt_left {p : Pattern} (q : Pattern) {cs rest : List Char} (h : p.behind cs = some rest) :
    (alt p q).behind cs = some rest := by
  unfold behind at h ⊢
  rw [rests, List.head?_append, h]
  rfl

theorem behind_alt_right {p : Pattern} {q : Pattern} {cs : List Char} (h : p.rests cs = []) :
    (alt p q).behind cs = q.behind cs := by
  rw [behind, rests, h]
  rfl

/-- A repetition takes the whole run. -/
theorem behind_many_run {test : Char → Bool} {least : Nat} {run cs : List Char} (hrun : ∀ c ∈ run, test c = true)
    (hleast : least ≤ run.length) (hstop : ∀ c ∈ cs.head?, test c = false) :
    (many test least none).behind (run ++ cs) = some cs := by
  have htake : (run ++ cs).takeWhile test = run := by
    rw [List.takeWhile_append_of_pos hrun]
    cases cs with
    | nil => exact List.append_nil run
    | cons c cs => rw [List.takeWhile_cons_of_neg (by simp [hstop c rfl]), List.append_nil]
  rw [behind, rests, htake, Option.elim_none, List.range_succ, List.reverse_append, List.reverse_singleton,
    List.singleton_append, List.filter_cons_of_pos (by simpa using hleast), List.map_cons, List.head?_cons, List.drop_left]

/-- One that takes so many and no more. -/
theorem behind_many_exact {test : Char → Bool} {run : List Char} (cs : List Char) (hrun : ∀ c ∈ run, test c = true) :
    (many test run.length (some run.length)).behind (run ++ cs) = some cs := by
  have hlong : run.length ≤ ((run ++ cs).takeWhile test).length := by
    rw [List.takeWhile_append_of_pos hrun, List.length_append]
    exact Nat.le_add_right _ _
  rw [behind, rests, Option.elim_some, Nat.min_eq_right hlong, List.range_succ, List.reverse_append, List.reverse_singleton,
    List.singleton_append, List.filter_cons_of_pos (by simp), List.map_cons, List.head?_cons, List.drop_left]

/-- An element that may be there or not. -/
theorem behind_optional {test : Char → Bool} {cs : List Char} (h : ∀ c ∈ cs.head?, test c = false) :
    (many test 0 (some 1)).behind cs = some cs := by
  have htake : cs.takeWhile test = [] := by
    cases cs with
    | nil => rfl
    | cons c cs => exact List.takeWhile_cons_of_neg (by simp [h c rfl])
  rw [behind, rests, htake]
  rfl

theorem behind_optional_taken {test : Char → Bool} {c : Char} (cs : List Char) (h : test c = true) :
    (many test 0 (some 1)).behind (c :: cs) = some cs := by
  have hlong : 1 ≤ ((c :: cs).takeWhile test).length := by
    rw [List.takeWhile_cons_of_pos h, List.length_cons]
    exact Nat.le_add_left _ _
  rw [behind, rests, Option.elim_some, Nat.min_eq_right hlong]
  rfl

theorem mem_rests_seq {p q : Pattern} {cs rest : List Char} :
    rest ∈ (seq p q).rests cs ↔ ∃ mid ∈ p.rests cs, rest ∈ q.rests mid := by
  rw [rests, List.mem_flatMap]

theorem mem_rests_one {test : Char → Bool} {cs rest : List Char} (h : rest ∈ (one test).rests cs) :
    ∃ c, cs = c :: rest ∧ test c = true := by
  cases cs with
  | nil => cases h
  | cons c cs =>
    rw [rests] at h
    split at h
    · exact ⟨c, by rw [List.mem_singleton.mp h], ‹_›⟩
    · cases h

theorem mem_rests_many {test : Char → Bool} {least : Nat} {most : Option Nat} {cs rest : List Char}
    (h : rest ∈ (many test least most).rests cs) :
    ∃ run, cs = run ++ rest ∧ (∀ c ∈ run, test c = true) ∧ least ≤ run.length ∧ ∀ m ∈ most, run.length ≤ m := by
  rw [rests] at h
  obtain ⟨n, hn, rfl⟩ := List.mem_map.mp h
  obtain ⟨hn, hleast⟩ := List.mem_filter.mp hn
  have hn := Nat.le_of_lt_succ (List.mem_range.mp (List.mem_reverse.mp hn))
  have htaken : n ≤ (cs.takeWhile test).length := by
    cases most with
    | none => exact hn
    | some m => exact Nat.le_trans hn (Nat.min_le_left _ _)
  have hlen : (cs.take n).length = n :=
    List.length_take_of_le (Nat.le_trans htaken (List.takeWhile_prefix test).length_le)
  refine ⟨cs.take n, (List.take_append_drop n cs).symm, fun c hc => ?_, ?_, ?_⟩
  · have hfront : cs.take n <+: cs.takeWhile test :=
      List.prefix_of_prefix_length_le (List.take_prefix n cs) (List.takeWhile_prefix test) (by rw [hlen]; exact htaken)
    exact List.mem_takeWhile_imp (hfront.subset hc)
  · rw [hlen]
    simpa using hleast
  · rintro m rfl
    rw [hlen]
    exact Nat.le_trans hn (Nat.min_le_right _ _)

/-! ## What a pattern sees -/

/-- None of the tests takes the character, and the end is not looked for. -/
@[grind] def Avoids (mark : Char) : Pattern → Prop
  | .empty => True
  | .one test => test mark = false
  | .many test _ _ => test mark = false
  | .seq p q => p.Avoids mark ∧ q.Avoids mark
  | .alt p q => p.Avoids mark ∧ q.Avoids mark
  | .atEnd => False

/-- **A pattern does not see past a character it does not take.** -/
theorem Avoids.rests_append {p : Pattern} {mark : Char} (h : p.Avoids mark) (cs tail : List Char) :
    p.rests (cs ++ mark :: tail) = (p.rests cs).map (· ++ mark :: tail) := by
  induction p generalizing cs with
  | empty => rfl
  | one test =>
    have hmark : test mark = false := h
    cases cs with
    | nil => simp [rests, hmark]
    | cons c cs =>
      rw [List.cons_append, rests, rests]
      split <;> rfl
  | many test least most =>
    have hmark : test mark = false := h
    have htake : (cs ++ mark :: tail).takeWhile test = cs.takeWhile test := by
      rw [List.takeWhile_append, List.takeWhile_cons_of_neg (by simp [hmark]), List.append_nil]
      split
      · rename_i hall
        exact ((List.takeWhile_prefix test).eq_of_length hall).symm
      · rfl
    rw [rests, rests, htake, List.map_map]
    refine List.map_congr_left fun n hn => ?_
    have hlen : n ≤ cs.length := by
      have hn := List.mem_range.mp (List.mem_reverse.mp (List.mem_of_mem_filter hn))
      have htaken := (List.takeWhile_prefix (l := cs) test).length_le
      cases most with
      | none => exact Nat.le_trans (Nat.le_of_lt_succ hn) htaken
      | some m => exact Nat.le_trans (Nat.le_of_lt_succ hn) (Nat.le_trans (Nat.min_le_left _ _) htaken)
    exact List.drop_append_of_le_length hlen
  | seq p q ihp ihq =>
    rw [rests, rests, ihp h.1, List.flatMap_map, List.map_flatMap]
    exact List.flatMap_congr fun mid _ => ihq h.2 mid
  | alt p q ihp ihq => rw [rests, rests, ihp h.1, ihq h.2, List.map_append]
  | atEnd => exact h.elim

end Pattern

end Patterns
