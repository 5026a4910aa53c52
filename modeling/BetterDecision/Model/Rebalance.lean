import BetterDecision.Lib.Apportion
import BetterDecision.Lib.Runs
import Mathlib.Data.List.Sort

/-!
# Rebalancing budgets

`_allocate_rebalance`: what a category will not need goes to the categories that will
overspend, and `_parse_ai_guidance`, which says whom to help first. Every amount has two
decimals and is its cents; `quantize` leaves such an amount as it is. The facts are one
row a category, so a dictionary by category is the list of its entries in the order of
the facts.
-/

namespace BetterDecision

structure CategoryFact where
  categoryId : Nat
  categoryName : String := ""
  budgetAmount : Int
  last3moAvg : Int
  currentMoActual : Int
  deriving DecidableEq, Repr

/-- `_project_period_spend`. -/
def projectPeriodSpend (fact : CategoryFact) : Int := max fact.currentMoActual fact.last3moAvg

/-- What the budget leaves over the projection. -/
def surplusOf (fact : CategoryFact) : Int := fact.budgetAmount - projectPeriodSpend fact

/-! ## A suggestion -/

/-- `BudgetDeltaSuggestion`. -/
structure BudgetDeltaSuggestion where
  categoryId : Nat
  categoryName : String
  currentAmount : Int
  suggestedAmount : Int
  deltaAmount : Int
  reasoning : String
  current_nonneg : 0 ≤ currentAmount
  suggested_nonneg : 0 ≤ suggestedAmount
  reasoning_le : reasoning.length ≤ 400
  deriving DecidableEq, Repr

/-- The fields a validation error names. -/
def invalidFields (currentAmount suggestedAmount : Int) : List String :=
  (if currentAmount < 0 then ["current_amount"] else []) ++ if suggestedAmount < 0 then ["suggested_amount"] else []

/-- `f"{amount:.2f}"` of a positive amount. -/
def formatCents (amount : Int) : String :=
  toString (amount / 100) ++ "." ++ toString (amount % 100 / 10) ++ toString (amount % 10)

def defaultReason (delta : Int) : String :=
  if delta < 0 then "Freeing " ++ formatCents (-delta) ++ " of projected surplus"
  else "Covering " ++ formatCents delta ++ " of projected overspend"

/-- `(reasoning_by_cat.get(cid) or default_reason)[:400]`. -/
def reasoningFor (reasoningByCat : Nat → Option String) (categoryId : Nat) (delta : Int) : String :=
  let text := match reasoningByCat categoryId with
    | some text => if text = "" then defaultReason delta else text
    | none => defaultReason delta
  String.ofList (text.toList.take 400)

theorem reasoningFor_length (reasoningByCat : Nat → Option String) (categoryId : Nat) (delta : Int) :
    (reasoningFor reasoningByCat categoryId delta).length ≤ 400 := by
  unfold reasoningFor
  rw [String.length_ofList, List.length_take]
  exact min_le_left _ _

/-- The suggestion for a row whose amount changes. -/
def suggestion (reasoningByCat : Nat → Option String) (fact : CategoryFact) (newAmount : Int) :
    Except (List String) BudgetDeltaSuggestion :=
  if h : 0 ≤ fact.budgetAmount ∧ 0 ≤ newAmount then
    .ok { categoryId := fact.categoryId, categoryName := fact.categoryName, currentAmount := fact.budgetAmount
          suggestedAmount := newAmount, deltaAmount := newAmount - fact.budgetAmount
          reasoning := reasoningFor reasoningByCat fact.categoryId (newAmount - fact.budgetAmount)
          current_nonneg := h.1, suggested_nonneg := h.2, reasoning_le := reasoningFor_length _ _ _ }
  else .error (invalidFields fact.budgetAmount newAmount)

/-! ## The allocation -/

section Allocation

variable (facts : List CategoryFact)

/-- The positive surplus of each category that has one. -/
def headroom : List (Nat × Int) :=
  facts.filterMap (fun f => if 0 < surplusOf f then some (f.categoryId, surplusOf f) else none)

/-- The positive need of each category that has one. -/
def deficit : List (Nat × Int) :=
  facts.filterMap (fun f => if surplusOf f < 0 then some (f.categoryId, -surplusOf f) else none)

def totalHeadroom : Int := ((headroom facts).map Prod.snd).sum

def totalDeficit : Int := ((deficit facts).map Prod.snd).sum

def movable : Int := min (totalHeadroom facts) (totalDeficit facts)

/-- The cents that rounding the givers' parts down leaves. -/
def leftoverCents : Int := Apportion.leftover (movable facts) (totalHeadroom facts) Prod.snd (headroom facts)

/-- What rounding a giver's part down cut off. -/
def remainderOf (giver : Nat × Int) : Int :=
  Apportion.remainder (movable facts) (totalHeadroom facts) Prod.snd giver

/-- The givers, the largest remainder first, then the lowest id. -/
def giversByRemainder : List (Nat × Int) :=
  (headroom facts).insertionSort (fun p q => remainderOf facts q < remainderOf facts p ∨
    (remainderOf facts p = remainderOf facts q ∧ p.1 ≤ q.1))

/-- The givers of one cent more. -/
def raisedGivers : List (Nat × Int) := (giversByRemainder facts).take (leftoverCents facts).toNat

/-- What each giver gives. -/
def given : List (Nat × Int) :=
  if 0 < totalHeadroom facts ∧ 0 < movable facts then
    (headroom facts).map (fun giver =>
      (giver.1, Apportion.share (movable facts) (totalHeadroom facts) Prod.snd (raisedGivers facts) giver))
  else []

/-- The deficits in the order they are covered: those named, then the largest first. -/
def orderedDeficits (priorityIds : List Nat) : List Nat :=
  let named := priorityIds.filter (fun cid => ((deficit facts).lookup cid).isSome)
  let rest := ((deficit facts).insertionSort (fun p q => q.2 ≤ p.2)).map Prod.fst
  named ++ rest.filter (fun cid => !named.contains cid)

/-- What each deficit receives. -/
def received (priorityIds : List Nat) : List (Nat × Int) :=
  Apportion.fill (movable facts)
    ((orderedDeficits facts priorityIds).map (fun cid => (cid, ((deficit facts).lookup cid).getD 0)))

/-- The amount a category ends with. -/
def newAmountOf (priorityIds : List Nat) (fact : CategoryFact) : Int :=
  match (given facts).lookup fact.categoryId with
  | some gives => fact.budgetAmount - gives
  | none =>
    match (received facts priorityIds).lookup fact.categoryId with
    | some takes => fact.budgetAmount + takes
    | none => fact.budgetAmount

/-- The amount that stays uncovered. -/
def uncoveredOverspend : Int := totalDeficit facts - movable facts

/-- `_allocate_rebalance`: the suggestions for the rows that change, and what stays
uncovered. -/
def allocateRebalance (priorityIds : List Nat) (reasoningByCat : Nat → Option String) :
    Except (List String) (List BudgetDeltaSuggestion × Int) := do
  let changed := facts.filter (fun f => newAmountOf facts priorityIds f - f.budgetAmount != 0)
  let suggestions ← changed.mapM (fun f => suggestion reasoningByCat f (newAmountOf facts priorityIds f))
  .ok (suggestions, uncoveredOverspend facts)

end Allocation

/-! ## The guidance -/

/-- An entry of the answer's `priority`. -/
inductive GuidanceValue
  | int (n : Int)
  | bool (b : Bool)
  | other
  deriving DecidableEq, Repr

/-- An integer, which a boolean is too. -/
def GuidanceValue.asInt : GuidanceValue → Option Int
  | .int n => some n
  | .bool b => some b.toInt
  | .other => none

/-- The `priority` of `_parse_ai_guidance`: known ids, each once. -/
def parsePriority (raw : List GuidanceValue) (allowedIds : List Nat) : List Nat :=
  raw.foldl (fun priority value =>
    match value.asInt with
    | some n =>
      if 0 ≤ n ∧ n.toNat ∈ allowedIds ∧ n.toNat ∉ priority then priority ++ [n.toNat] else priority
    | none => priority) []

end BetterDecision
