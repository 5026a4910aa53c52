import Mathlib.Algebra.Ring.Nat
import Mathlib.Algebra.BigOperators.Group.List.Basic
import Mathlib.Algebra.Order.Group.Nat
import Mathlib.Data.List.Induction

/-!
# Counting in windows

A log of hits on keys. A hit may start a new window of its key, and every other belongs to
the window that is open. Where the count of each hit is what its window has come to, a
limit on the count is a limit on the hits: no window admits more than that many.
-/

namespace Windows

variable {κ τ : Type}

structure Hit (κ τ : Type) where
  /-- The call that made it. -/
  call : Nat
  key : κ
  amount : Nat
  /-- The clock of the call. -/
  clock : τ
  count : Nat
  starts : Bool

variable [DecidableEq κ]

/-- What a hit makes of the open window of a key. -/
@[grind] def extend (k : κ) (open_ : List (Hit κ τ)) (h : Hit κ τ) : List (Hit κ τ) :=
  if h.key = k then if h.starts then [h] else open_ ++ [h] else open_

/-- The window of a key that is open after a log. -/
@[grind] def window (k : κ) (log : List (Hit κ τ)) : List (Hit κ τ) := log.foldl (extend k) []

@[grind] def total (hits : List (Hit κ τ)) : Nat := (hits.map (·.amount)).sum

theorem window_concat (k : κ) (log : List (Hit κ τ)) (h : Hit κ τ) :
    window k (log ++ [h]) = extend k (window k log) h := List.foldl_concat _ _ _ _

theorem window_other {k : κ} {h : Hit κ τ} (hkey : h.key ≠ k) (log : List (Hit κ τ)) :
    window k (log ++ [h]) = window k log := by
  rw [window_concat]
  exact if_neg hkey

theorem window_starts {h : Hit κ τ} (hstarts : h.starts = true) (log : List (Hit κ τ)) :
    window h.key (log ++ [h]) = [h] := by
  rw [window_concat, extend, if_pos rfl, if_pos hstarts]

theorem window_joins {h : Hit κ τ} (hjoins : h.starts = false) (log : List (Hit κ τ)) :
    window h.key (log ++ [h]) = window h.key log ++ [h] := by
  rw [window_concat, extend, if_pos rfl, if_neg (ne_true_of_eq_false hjoins)]

omit [DecidableEq κ] in
theorem total_concat (hits : List (Hit κ τ)) (h : Hit κ τ) : total (hits ++ [h]) = total hits + h.amount := by
  unfold total
  rw [List.map_append, List.sum_append, List.map_singleton, List.sum_singleton]

omit [DecidableEq κ] in
theorem length_le_total {hits : List (Hit κ τ)} (h : ∀ hit ∈ hits, 1 ≤ hit.amount) : hits.length ≤ total hits := by
  induction hits with
  | nil => exact le_rfl
  | cons hit hits ih =>
    have hfirst := h hit List.mem_cons_self
    have hrest := ih fun other ho => h other (List.mem_cons_of_mem _ ho)
    have hsum : total (hit :: hits) = hit.amount + total hits := List.sum_cons
    rw [List.length_cons, hsum]
    omega

/-- Only hits of the log are in a window. -/
theorem mem_of_mem_window {k : κ} {log : List (Hit κ τ)} {h : Hit κ τ} (hmem : h ∈ window k log) : h ∈ log := by
  induction log using List.reverseRecOn with
  | nil => cases hmem
  | append_singleton log last ih =>
    rw [window_concat, extend] at hmem
    split at hmem
    · split at hmem
      · exact List.mem_append_right _ hmem
      · rcases List.mem_append.mp hmem with hmem | hmem
        · exact List.mem_append_left _ (ih hmem)
        · exact List.mem_append_right _ hmem
    · exact List.mem_append_left _ (ih hmem)

/-- Every count is what the window has come to, the hit itself included. -/
@[grind] def Counted (log : List (Hit κ τ)) : Prop :=
  ∀ before h after, log = before ++ h :: after → h.count = total (window h.key (before ++ [h]))

theorem Counted.before {log : List (Hit κ τ)} {h : Hit κ τ} (hcounted : Counted (log ++ [h])) : Counted log := by
  intro before hit after heq
  refine hcounted before hit (after ++ [h]) ?_
  rw [heq, List.append_assoc, List.cons_append]

theorem Counted.concat {log : List (Hit κ τ)} {h : Hit κ τ} (hcounted : Counted log)
    (hlast : h.count = total (window h.key (log ++ [h]))) : Counted (log ++ [h]) := by
  intro before hit after heq
  rcases List.eq_nil_or_concat after with rfl | ⟨after, last, rfl⟩
  · obtain ⟨rfl, hhit⟩ := List.append_inj' heq rfl
    obtain rfl := (List.cons.inj hhit).1
    exact hlast
  · rw [List.concat_eq_append, ← List.cons_append, ← List.append_assoc] at heq
    obtain ⟨hbefore, -⟩ := List.append_inj' heq rfl
    exact hcounted before hit after hbefore

/-- **No window admits more hits than its limit.** -/
theorem Counted.admitted {log : List (Hit κ τ)} (hcounted : Counted log) (hpos : ∀ h ∈ log, 1 ≤ h.amount) (k : κ)
    (limit : Nat) : ((window k log).filter (·.count ≤ limit)).length ≤ limit := by
  induction log using List.reverseRecOn with
  | nil => exact Nat.zero_le _
  | append_singleton log h ih =>
    have hbefore := ih hcounted.before fun hit hmem => hpos hit (List.mem_append_left _ hmem)
    have hlast := hcounted log h [] rfl
    by_cases hkey : h.key = k
    · subst hkey
      by_cases hlimit : h.count ≤ limit
      · -- all of the window is no more than what it has come to
        have hall : ∀ hit ∈ window h.key (log ++ [h]), 1 ≤ hit.amount := fun hit hmem => hpos hit (mem_of_mem_window hmem)
        exact (List.length_filter_le _ _).trans ((length_le_total hall).trans (hlast ▸ hlimit))
      · have hout : [h].filter (·.count ≤ limit) = [] := List.filter_cons_of_neg (by simpa using hlimit)
        cases hstarts : h.starts with
        | true =>
          rw [window_starts hstarts, hout]
          exact Nat.zero_le _
        | false =>
          rw [window_joins hstarts, List.filter_append, hout, List.append_nil]
          exact hbefore
    · rw [window_other hkey]
      exact hbefore

end Windows
