import Mathlib.Algebra.BigOperators.Group.List.Basic
import Mathlib.Algebra.Order.Group.Int
import Mathlib.Data.List.Sort
import Mathlib.Tactic.Abel

/-!
# Dated amounts and running totals

Amounts on days, and the two things one does with them: walk day by day under a running
total, and lay them over a series of points already computed. Both come to `upTo`: a
point shows what it started from plus every amount dated up to it (`walk_eq`,
`compose_eq`), so two series are compared by comparing sums.
-/

universe u

namespace Dated

variable {M : Type u} [AddCommMonoid M]

/-- The amounts on a day. -/
@[grind] def onDay (ds : List (Int × M)) (day : Int) : M := ((ds.filter (fun p => p.1 == day)).map Prod.snd).sum

/-- The amounts on a day and before. -/
@[grind] def upTo (ds : List (Int × M)) (day : Int) : M :=
  ((ds.filter (fun p => decide (p.1 ≤ day))).map Prod.snd).sum

/-- Every amount. -/
@[grind] def total (ds : List (Int × M)) : M := (ds.map Prod.snd).sum

@[simp] theorem upTo_nil (day : Int) : upTo ([] : List (Int × M)) day = 0 := rfl

theorem upTo_cons (p : Int × M) (ds : List (Int × M)) (day : Int) :
    upTo (p :: ds) day = (if p.1 ≤ day then p.2 else 0) + upTo ds day := by
  unfold upTo
  by_cases h : p.1 ≤ day <;> simp [h]

theorem onDay_cons (p : Int × M) (ds : List (Int × M)) (day : Int) :
    onDay (p :: ds) day = (if p.1 = day then p.2 else 0) + onDay ds day := by
  unfold onDay
  by_cases h : p.1 = day <;> simp [h]

theorem upTo_append (ds es : List (Int × M)) (day : Int) :
    upTo (ds ++ es) day = upTo ds day + upTo es day := by
  simp [upTo]

@[simp] theorem total_nil : total ([] : List (Int × M)) = 0 := rfl

@[simp] theorem total_append (ds es : List (Int × M)) : total (ds ++ es) = total ds + total es := by
  simp [total]

/-- A day's amounts are what the day adds. -/
theorem upTo_succ (ds : List (Int × M)) (day : Int) : upTo ds day = upTo ds (day - 1) + onDay ds day := by
  induction ds with
  | nil => simp [upTo, onDay]
  | cons p ds ih =>
    rw [upTo_cons, upTo_cons, onDay_cons, ih]
    have hsplit : (if p.1 ≤ day then p.2 else 0) =
        (if p.1 ≤ day - 1 then p.2 else 0) + if p.1 = day then p.2 else 0 := by
      rcases lt_trichotomy p.1 day with h | h | h
      · rw [if_pos h.le, if_pos (by omega), if_neg (by omega), add_zero]
      · rw [if_pos h.le, if_neg (by omega), if_pos h, zero_add]
      · rw [if_neg (by omega), if_neg (by omega), if_neg (by omega), add_zero]
    rw [hsplit]
    abel

/-- Nothing lies before the first amount. -/
theorem upTo_of_lt {ds : List (Int × M)} {day : Int} (h : ∀ p ∈ ds, day < p.1) : upTo ds day = 0 := by
  unfold upTo
  rw [List.filter_eq_nil_iff.mpr fun p hp => by simpa using h p hp]
  rfl

/-- Everything lies before the last day. -/
theorem upTo_of_le {ds : List (Int × M)} {day : Int} (h : ∀ p ∈ ds, p.1 ≤ day) : upTo ds day = total ds := by
  unfold upTo total
  rw [List.filter_eq_self.mpr fun p hp => by simpa using h p hp]

theorem upTo_perm {ds es : List (Int × M)} (h : ds.Perm es) (day : Int) : upTo ds day = upTo es day :=
  ((h.filter _).map _).sum_eq

/-! ## Between two days -/

/-- The amounts after a day, up to another. -/
@[grind] def within (ds : List (Int × M)) (a b : Int) : M :=
  ((ds.filter (fun p => decide (a < p.1 ∧ p.1 ≤ b))).map Prod.snd).sum

theorem within_cons (p : Int × M) (ds : List (Int × M)) (a b : Int) :
    within (p :: ds) a b = (if a < p.1 ∧ p.1 ≤ b then p.2 else 0) + within ds a b := by
  unfold within
  by_cases h : a < p.1 ∧ p.1 ≤ b <;> simp [h]

/-- What a later day has more. -/
theorem upTo_eq_add_within (ds : List (Int × M)) {a b : Int} (h : a ≤ b) : upTo ds b = upTo ds a + within ds a b := by
  induction ds with
  | nil => simp [upTo, within]
  | cons p ds ih =>
    rw [upTo_cons, upTo_cons, within_cons, ih]
    have hsplit : (if p.1 ≤ b then p.2 else 0) =
        (if p.1 ≤ a then p.2 else 0) + if a < p.1 ∧ p.1 ≤ b then p.2 else 0 := by
      by_cases ha : p.1 ≤ a
      · rw [if_pos (by omega), if_pos ha, if_neg (by omega), add_zero]
      · by_cases hb : p.1 ≤ b
        · rw [if_pos hb, if_neg ha, if_pos (by omega), zero_add]
        · rw [if_neg hb, if_neg ha, if_neg (by omega), add_zero]
    rw [hsplit]
    abel

theorem within_perm {ds es : List (Int × M)} (h : ds.Perm es) (a b : Int) : within ds a b = within es a b :=
  ((h.filter _).map _).sum_eq

/-- The negative amounts only lower it. -/
theorem within_le_pos (ds : List (Int × Int)) (a b : Int) :
    within ds a b ≤ within (ds.filter (fun p => decide (0 < p.2))) a b := by
  induction ds with
  | nil => exact le_rfl
  | cons p ds ih =>
    rw [within_cons]
    by_cases hp : 0 < p.2
    · rw [List.filter_cons_of_pos (by simpa using hp), within_cons]
      omega
    · rw [List.filter_cons_of_neg (by simpa using hp)]
      split <;> omega

theorem upTo_nonpos {ds : List (Int × Int)} (h : ∀ p ∈ ds, p.2 ≤ 0) (day : Int) : upTo ds day ≤ 0 := by
  induction ds with
  | nil => exact le_rfl
  | cons p ds ih =>
    rw [upTo_cons]
    have hp := h p List.mem_cons_self
    have hds := ih fun q hq => h q (List.mem_cons_of_mem _ hq)
    split <;> omega

theorem within_nonpos {ds : List (Int × Int)} (h : ∀ p ∈ ds, p.2 ≤ 0) (a b : Int) : within ds a b ≤ 0 := by
  induction ds with
  | nil => exact le_rfl
  | cons p ds ih =>
    rw [within_cons]
    have hp := h p List.mem_cons_self
    have hds := ih fun q hq => h q (List.mem_cons_of_mem _ hq)
    split <;> omega

/-! ## The walk -/

/-- `n` days from `day` on. -/
@[grind] def days : Nat → Int → List Int
  | 0, _ => []
  | n + 1, day => day :: days n (day + 1)

theorem mem_days {n : Nat} {day d : Int} : d ∈ days n day ↔ day ≤ d ∧ d < day + n := by
  induction n generalizing day with
  | zero => simp [days]
  | succ n ih =>
    rw [days, List.mem_cons, ih]
    push_cast
    omega

theorem days_sorted (n : Nat) (day : Int) : (days n day).Pairwise (· < ·) := by
  induction n generalizing day with
  | zero => exact List.Pairwise.nil
  | succ n ih =>
    refine List.pairwise_cons.mpr ⟨fun d hd => ?_, ih _⟩
    have := (mem_days.mp hd).1
    omega

/-- The running total over `n` days, each of them shown once all of its amounts are in. -/
@[grind] def walk (perDay : Int → M) (shown : Int → Bool) : Nat → Int → M → List (Int × M)
  | 0, _, _ => []
  | n + 1, day, running =>
    if shown day then (day, running + perDay day) :: walk perDay shown n (day + 1) (running + perDay day)
    else walk perDay shown n (day + 1) (running + perDay day)

/-- **A shown day shows the start and every amount up to it.** -/
theorem walk_eq (ds : List (Int × M)) (shown : Int → Bool) (seed : M) (n : Nat) (day : Int) :
    walk (onDay ds) shown n day (seed + upTo ds (day - 1)) =
      ((days n day).filter shown).map (fun d => (d, seed + upTo ds d)) := by
  induction n generalizing day with
  | zero => rfl
  | succ n ih =>
    have hday : seed + upTo ds (day - 1) + onDay ds day = seed + upTo ds day := by
      rw [add_assoc, ← upTo_succ]
    have hnext : seed + upTo ds day = seed + upTo ds (day + 1 - 1) := by rw [Int.add_sub_cancel]
    rw [walk, days, hday, hnext, ih]
    by_cases hs : shown day = true
    · rw [if_pos hs, List.filter_cons_of_pos hs, List.map_cons, Int.add_sub_cancel]
    · rw [if_neg hs, List.filter_cons_of_neg hs]

/-- The walk of amounts none of which lies before it. -/
theorem walk_eq_of_le {ds : List (Int × M)} {day : Int} (h : ∀ p ∈ ds, day ≤ p.1) (shown : Int → Bool)
    (seed : M) (n : Nat) :
    walk (onDay ds) shown n day seed = ((days n day).filter shown).map (fun d => (d, seed + upTo ds d)) := by
  have hzero : upTo ds (day - 1) = 0 := upTo_of_lt fun p hp => by have := h p hp; omega
  rw [← walk_eq, hzero, add_zero]

/-- The day a shown walk ends on. -/
theorem getLast?_filter_days {shown : Int → Bool} {n : Nat} {day : Int} (h : shown (day + n) = true) :
    ((days (n + 1) day).filter shown).getLast? = some (day + n) := by
  induction n generalizing day with
  | zero =>
    have hday : shown day = true := by simpa using h
    simp [days, hday]
  | succ n ih =>
    have he : day + 1 + (n : Int) = day + ((n + 1 : Nat) : Int) := by push_cast; omega
    have hlast : ((days (n + 1) (day + 1)).filter shown).getLast? = some (day + 1 + (n : Int)) :=
      ih (by rw [he]; exact h)
    rw [he] at hlast
    rw [days]
    by_cases hs : shown day = true
    · rw [List.filter_cons_of_pos hs, List.getLast?_cons, hlast]
      rfl
    · rw [List.filter_cons_of_neg hs, hlast]

/-! ## Overlays -/

/-- Lay amounts, in the order of their days, over points: each is in from its day on. -/
@[grind] def composeFrom : List (Int × M) → List (Int × M) → M → List (Int × M)
  | [], _, _ => []
  | (day, balance) :: points, pending, running =>
    let running := running + total (pending.takeWhile (fun p => decide (p.1 ≤ day)))
    (day, balance + running) ::
      composeFrom points (pending.dropWhile (fun p => decide (p.1 ≤ day))) running

/-- Lay amounts over points. -/
@[grind] def compose (points deltas : List (Int × M)) : List (Int × M) :=
  composeFrom points (deltas.insertionSort (fun p q => p.1 ≤ q.1)) 0

/-- The amounts a point takes off the front are the ones up to it. -/
theorem upTo_takeWhile (pending : List (Int × M)) {day d : Int} (h : day ≤ d) :
    upTo pending d = total (pending.takeWhile (fun p => decide (p.1 ≤ day))) +
      upTo (pending.dropWhile (fun p => decide (p.1 ≤ day))) d := by
  conv_lhs => rw [← List.takeWhile_append_dropWhile (p := fun p : Int × M => decide (p.1 ≤ day)) (l := pending)]
  rw [upTo_append, upTo_of_le]
  intro p hp
  have hle : p.1 ≤ day := by simpa using List.all_eq_true.mp List.all_takeWhile p hp
  omega

omit [AddCommMonoid M] in
/-- What is left after them lies later. -/
theorem lt_of_mem_dropWhile {pending : List (Int × M)} (hsorted : pending.Pairwise (fun p q => p.1 ≤ q.1))
    {day : Int} {p : Int × M} (h : p ∈ pending.dropWhile (fun p => decide (p.1 ≤ day))) : day < p.1 := by
  induction pending with
  | nil => cases h
  | cons q pending ih =>
    obtain ⟨hq, htail⟩ := List.pairwise_cons.mp hsorted
    by_cases hle : q.1 ≤ day
    · rw [List.dropWhile_cons_of_pos (by simpa using hle)] at h
      exact ih htail h
    · rw [List.dropWhile_cons_of_neg (by simpa using hle)] at h
      rcases List.mem_cons.mp h with rfl | h
      · omega
      · have := hq p h
        omega

theorem composeFrom_eq {points pending : List (Int × M)} (running : M)
    (hpoints : points.Pairwise (fun p q => p.1 ≤ q.1)) (hpending : pending.Pairwise (fun p q => p.1 ≤ q.1)) :
    composeFrom points pending running = points.map (fun p => (p.1, p.2 + (running + upTo pending p.1))) := by
  induction points generalizing pending running with
  | nil => rfl
  | cons p points ih =>
    obtain ⟨hp, htail⟩ := List.pairwise_cons.mp hpoints
    have hrest := hpending.sublist (List.dropWhile_sublist (fun q => decide (q.1 ≤ p.1)))
    rw [composeFrom, ih _ htail hrest, List.map_cons, upTo_takeWhile pending le_rfl,
      upTo_of_lt fun q hq => lt_of_mem_dropWhile hpending hq, add_zero]
    congr 1
    refine List.map_congr_left fun q hq => ?_
    rw [upTo_takeWhile pending (hp q hq), add_assoc]

/-- **A point of a composed series shows the point below and every amount up to it.** -/
theorem compose_eq {points : List (Int × M)} (deltas : List (Int × M))
    (hpoints : points.Pairwise (fun p q => p.1 ≤ q.1)) :
    compose points deltas = points.map (fun p => (p.1, p.2 + upTo deltas p.1)) := by
  have hsorted : (deltas.insertionSort (fun p q => p.1 ≤ q.1)).Pairwise (fun p q => p.1 ≤ q.1) := by
    have : Std.Total (fun p q : Int × M => p.1 ≤ q.1) := ⟨fun p q => le_total p.1 q.1⟩
    have : IsTrans (Int × M) (fun p q => p.1 ≤ q.1) := ⟨fun p q r => le_trans⟩
    exact List.pairwise_insertionSort _ _
  rw [compose, composeFrom_eq 0 hpoints hsorted]
  refine List.map_congr_left fun p _ => ?_
  rw [zero_add, upTo_perm (List.perm_insertionSort _ _)]

end Dated
