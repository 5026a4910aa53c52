import Mathlib.Data.List.Nodup
import Mathlib.Data.List.Induction

/-!
# Sending once with a log that is only looked back on

A sender works through days. Each day it has the keys that could be sent, and sends those
its log does not have from the last `W` days on. The log is longer than what it looks at,
so a key could be sent again once its entry is out of sight. It is not when no two days
that have the key lie further apart than `W`: then the entry is in sight whenever the key
comes up.
-/

namespace Lookback

variable {κ : Type} [DecidableEq κ]

/-- The keys logged on the day `since` or later. -/
@[grind] def sentSince (since : Int) (log : List (κ × Int)) : List κ :=
  (log.filter (fun e => since ≤ e.2)).map (·.1)

omit [DecidableEq κ] in
theorem mem_sentSince {since : Int} {log : List (κ × Int)} {k : κ} :
    k ∈ sentSince since log ↔ ∃ d, (k, d) ∈ log ∧ since ≤ d := by
  unfold sentSince
  rw [List.mem_map]
  constructor
  · rintro ⟨⟨k, d⟩, he, rfl⟩
    obtain ⟨he, hd⟩ := List.mem_filter.mp he
    exact ⟨d, he, of_decide_eq_true hd⟩
  · rintro ⟨d, he, hd⟩
    exact ⟨(k, d), List.mem_filter.mpr ⟨he, decide_eq_true hd⟩, rfl⟩

/-- The keys of a day that are sent on it. -/
@[grind] def fresh (W day : Int) (log : List (κ × Int)) (keys : List κ) : List κ :=
  keys.filter (· ∉ sentSince (day - W) log)

/-- A day, with the keys that could be sent on it. -/
@[grind] def step (W : Int) (log : List (κ × Int)) (day : Int × List κ) : List (κ × Int) :=
  log ++ (fresh W day.1 log day.2).map (·, day.1)

@[grind] def send (W : Int) (days : List (Int × List κ)) : List (κ × Int) := days.foldl (step W) []

theorem send_concat (W : Int) (days : List (Int × List κ)) (day : Int × List κ) :
    send W (days ++ [day]) = step W (send W days) day := by
  unfold send
  rw [List.foldl_append]
  rfl

/-- The days go on, and a key comes up on days that are no further apart than `W`. -/
structure Spaced (W : Int) (days : List (Int × List κ)) : Prop where
  nodup : ∀ day ∈ days, day.2.Nodup
  ordered : days.Pairwise (fun a b => a.1 ≤ b.1)
  near : ∀ a ∈ days, ∀ b ∈ days, ∀ k ∈ a.2, k ∈ b.2 → b.1 ≤ a.1 + W

omit [DecidableEq κ] in
theorem Spaced.before {W : Int} {days : List (Int × List κ)} {day : Int × List κ} (h : Spaced W (days ++ [day])) :
    Spaced W days where
  nodup a ha := h.nodup a (List.mem_append_left _ ha)
  ordered := (List.pairwise_append.mp h.ordered).1
  near a ha b hb := h.near a (List.mem_append_left _ ha) b (List.mem_append_left _ hb)

/-- What the log has is on some day. -/
theorem day_of_mem_send {W : Int} {days : List (Int × List κ)} {k : κ} {d : Int} (h : (k, d) ∈ send W days) :
    ∃ day ∈ days, day.1 = d ∧ k ∈ day.2 := by
  induction days using List.reverseRecOn with
  | nil => cases h
  | append_singleton days day ih =>
    rw [send_concat] at h
    rcases List.mem_append.mp h with h | h
    · obtain ⟨day', hday', hk⟩ := ih h
      exact ⟨day', List.mem_append_left _ hday', hk⟩
    · obtain ⟨k', hk', heq⟩ := List.mem_map.mp h
      cases heq
      exact ⟨day, List.mem_append_right _ List.mem_cons_self, rfl, (List.mem_filter.mp hk').1⟩

/-- A key that comes up has been sent by the end of the day, whatever the log looks back on. -/
theorem sent_of_mem {W : Int} {days : List (Int × List κ)} {day : Int × List κ} {k : κ} (hday : day ∈ days)
    (hk : k ∈ day.2) : k ∈ (send W days).map (·.1) := by
  induction days using List.reverseRecOn with
  | nil => cases hday
  | append_singleton days last ih =>
    rw [send_concat, step, List.map_append]
    rcases List.mem_append.mp hday with hday | hday
    · exact List.mem_append_left _ (ih hday)
    · obtain rfl := List.mem_singleton.mp hday
      by_cases hsent : k ∈ sentSince (day.1 - W) (send W days)
      · obtain ⟨d, he, -⟩ := mem_sentSince.mp hsent
        exact List.mem_append_left _ (List.mem_map_of_mem he)
      · refine List.mem_append_right _ ?_
        rw [List.map_map]
        exact List.mem_map.mpr ⟨k, List.mem_filter.mpr ⟨hk, decide_eq_true hsent⟩, rfl⟩

/-- **No key is sent twice**: an entry is still in sight whenever its key comes up. -/
theorem send_nodup {W : Int} {days : List (Int × List κ)} (h : Spaced W days) :
    ((send W days).map (·.1)).Nodup := by
  induction days using List.reverseRecOn with
  | nil => exact List.nodup_nil
  | append_singleton days day ih =>
    have hkeys : (fresh W day.1 (send W days) day.2).map (fun k => (k, day.1).1) =
        fresh W day.1 (send W days) day.2 := List.map_id' _
    rw [send_concat, step, List.map_append, List.map_map]
    refine List.nodup_append'.mpr ⟨ih h.before, ?_, fun k hk hk' => ?_⟩
    · change ((fresh W day.1 (send W days) day.2).map (fun k => (k, day.1).1)).Nodup
      rw [hkeys]
      exact (h.nodup day (List.mem_append_right _ List.mem_cons_self)).filter _
    · -- the day that logged it is no further back than `W`
      obtain ⟨⟨k, d⟩, he, rfl⟩ := List.mem_map.mp hk
      obtain ⟨before, hbefore, rfl, hkb⟩ := day_of_mem_send he
      obtain ⟨k', hfresh, hkk⟩ := List.mem_map.mp hk'
      obtain rfl : k' = k := hkk
      obtain ⟨hkd, hunsent⟩ := List.mem_filter.mp hfresh
      have hnear := h.near before (List.mem_append_left _ hbefore) day (List.mem_append_right _ List.mem_cons_self)
        k' hkb hkd
      exact of_decide_eq_true hunsent (mem_sentSince.mpr ⟨before.1, he, by omega⟩)

end Lookback
