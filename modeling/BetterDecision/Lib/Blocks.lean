import Mathlib.Data.List.Basic

/-!
# Maximal blocks

The elements of a list that have a property lie in blocks, each as long as it can be: what
comes before it and what comes after it do not have the property. `Cut` takes a list apart
into its blocks, in order, and there is one way to do so.

`collect` is the single pass that builds a summary of each block as it goes, with the block
it is in kept open. `collect_cut` says that it comes to the summaries of all the blocks,
the last one too when the list ends in it.
-/

namespace Blocks

variable {α β : Type}

/-- A list and its blocks, each the first element and the others. -/
inductive Cut (p : α → Prop) : List α → List (α × List α) → Prop
  | nil : Cut p [] []
  | gap {x : α} {xs : List α} {blocks : List (α × List α)} : ¬ p x → Cut p xs blocks → Cut p (x :: xs) blocks
  | block {x : α} {rest xs : List α} {blocks : List (α × List α)} : p x → (∀ y ∈ rest, p y) →
      (∀ y ∈ xs.head?, ¬ p y) → Cut p xs blocks → Cut p (x :: (rest ++ xs)) ((x, rest) :: blocks)

variable {p : α → Prop}

/-- Every list is cut into blocks. -/
theorem exists_cut [DecidablePred p] (xs : List α) : ∃ blocks, Cut p xs blocks := by
  induction xs with
  | nil => exact ⟨[], .nil⟩
  | cons x xs ih =>
    obtain ⟨blocks, hcut⟩ := ih
    by_cases hx : p x
    · cases hcut with
      | nil => exact ⟨[(x, [])], @Cut.block α p x [] [] [] hx (fun _ h => nomatch h) (fun _ h => nomatch h) .nil⟩
      | @gap y ys _ hy hcut =>
        refine ⟨(x, []) :: blocks, @Cut.block α p x [] (y :: ys) blocks hx (fun _ h => nomatch h) (fun z hz => ?_)
          (.gap hy hcut)⟩
        exact Option.some.inj hz ▸ hy
      | @block y rest ys blocks hy hrest hend hcut =>
        refine ⟨(x, y :: rest) :: blocks, @Cut.block α p x (y :: rest) ys blocks hx (fun z hz => ?_) hend hcut⟩
        rcases List.mem_cons.mp hz with rfl | hz
        · exact hy
        · exact hrest z hz
    · exact ⟨blocks, .gap hx hcut⟩

/-- A block is a stretch of the list, and cannot be made longer. -/
theorem Cut.maximal {xs : List α} {blocks : List (α × List α)} (h : Cut p xs blocks) {b : α × List α}
    (hb : b ∈ blocks) :
    ∃ before after, xs = before ++ (b.1 :: b.2) ++ after ∧ (∀ y ∈ b.1 :: b.2, p y) ∧
      (∀ y ∈ before.getLast?, ¬ p y) ∧ ∀ y ∈ after.head?, ¬ p y := by
  induction h with
  | nil => cases hb
  | @gap x xs blocks hx _ ih =>
    obtain ⟨before, after, rfl, hall, hbefore, hafter⟩ := ih hb
    refine ⟨x :: before, after, rfl, hall, fun y hy => ?_, hafter⟩
    cases before with
    | nil => exact Option.some.inj hy ▸ hx
    | cons z before =>
      rw [List.getLast?_cons_cons] at hy
      exact hbefore y hy
  | @block x rest xs blocks hx hrest hend _ ih =>
    rcases List.mem_cons.mp hb with rfl | hb
    · refine ⟨[], xs, rfl, fun y hy => ?_, (fun _ h => nomatch h), hend⟩
      rcases List.mem_cons.mp hy with rfl | hy
      · exact hx
      · exact hrest y hy
    · obtain ⟨before, after, rfl, hall, hbefore, hafter⟩ := ih hb
      refine ⟨x :: (rest ++ before), after, ?_, hall, fun y hy => ?_, hafter⟩
      · simp only [List.cons_append, List.append_assoc]
      · cases before with
        | nil =>
          -- the block would go on
          exact absurd (hall b.1 List.mem_cons_self) (hend b.1 rfl)
        | cons z before =>
          rw [List.getLast?_cons, List.getLast?_append_of_ne_nil _ (List.cons_ne_nil _ _)] at hy
          cases hlast : (z :: before).getLast? with
          | none => exact absurd (List.getLast?_eq_none_iff.mp hlast) (List.cons_ne_nil _ _)
          | some w =>
            rw [hlast] at hy
            obtain rfl : w = y := Option.some.inj hy
            exact hbefore w hlast

/-! ## One pass -/

/-- The summaries of the blocks passed, and of the one the pass is in. -/
structure Walk (β : Type) where
  closed : List β := []
  current : Option β := none

variable [DecidablePred p] (first : α → β) (extend : β → α → β)

variable (p) in
@[grind] def step (w : Walk β) (x : α) : Walk β :=
  if p x then
    match w.current with
    | none => { w with current := some (first x) }
    | some b => { w with current := some (extend b x) }
  else
    match w.current with
    | none => w
    | some b => { closed := w.closed ++ [b], current := none }

@[grind] def Walk.finish (w : Walk β) : List β := w.closed ++ w.current.toList

@[grind] def summary (b : α × List α) : β := b.2.foldl extend (first b.1)

theorem foldl_step_block {rest : List α} (hrest : ∀ y ∈ rest, p y) (closed : List β) (b : β) :
    rest.foldl (step p first extend) { closed, current := some b } =
      { closed, current := some (rest.foldl extend b) } := by
  induction rest generalizing b with
  | nil => rfl
  | cons y rest ih =>
    have hstep : step p first extend { closed, current := some b } y = { closed, current := some (extend b y) } :=
      if_pos (hrest y List.mem_cons_self)
    rw [List.foldl_cons, hstep, ih fun z hz => hrest z (List.mem_cons_of_mem _ hz), List.foldl_cons]

/-- After a block the pass is as if it had been closed. -/
theorem foldl_step_closed {xs : List α} (hend : ∀ y ∈ xs.head?, ¬ p y) (closed : List β) (b : β) :
    (xs.foldl (step p first extend) { closed, current := some b }).finish =
      (xs.foldl (step p first extend) { closed := closed ++ [b] }).finish := by
  cases xs with
  | nil => exact (List.append_nil _).symm
  | cons y xs =>
    have hy := hend y rfl
    have hopen : step p first extend { closed, current := some b } y = { closed := closed ++ [b] } := if_neg hy
    have hclosed : step p first extend { closed := closed ++ [b] } y = { closed := closed ++ [b] } := if_neg hy
    rw [List.foldl_cons, List.foldl_cons, hopen, hclosed]

/-- **A pass comes to the summaries of the blocks, in order.** -/
theorem collect_cut {xs : List α} {blocks : List (α × List α)} (h : Cut p xs blocks) (closed : List β) :
    (xs.foldl (step p first extend) { closed }).finish = closed ++ blocks.map (summary first extend) := by
  induction h generalizing closed with
  | nil => rfl
  | @gap x xs blocks hx _ ih =>
    have hstep : step p first extend { closed } x = { closed } := if_neg hx
    rw [List.foldl_cons, hstep, ih]
  | @block x rest xs blocks hx hrest hend _ ih =>
    have hstep : step p first extend { closed } x = { closed, current := some (first x) } := if_pos hx
    rw [List.foldl_cons, hstep, List.foldl_append, foldl_step_block first extend hrest, foldl_step_closed _ _ hend, ih,
      List.append_assoc]
    rfl

end Blocks
