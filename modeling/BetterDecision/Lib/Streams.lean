import Mathlib.Data.List.Basic

/-!
# Stages that read a stream piece by piece

A stage keeps a state; given a piece of its input it writes a piece of its output. It is
`Seamless` if two pieces give what their concatenation gives, and then `feed_eq` says that
no way of cutting the input shows in the output. A machine that steps item by item is
seamless, and so is one seamless stage after another.
-/

namespace Streams

universe u v w x y

variable {σ : Type u} {τ : Type v} {α : Type w} {β : Type x} {γ : Type y}

/-- Piece after piece, each from the state the one before left. -/
@[grind] def feed (f : σ → List α → σ × List β) : σ → List (List α) → σ × List β
  | s, [] => (s, [])
  | s, piece :: pieces =>
    let now := f s piece
    let later := feed f now.1 pieces
    (later.1, now.2 ++ later.2)

@[grind] def Seamless (f : σ → List α → σ × List β) : Prop :=
  ∀ s xs ys, f s (xs ++ ys) = ((f (f s xs).1 ys).1, (f s xs).2 ++ (f (f s xs).1 ys).2)

/-- An empty piece changes nothing once something was read. -/
theorem Seamless.nil_after {f : σ → List α → σ × List β} (h : Seamless f) (s : σ) (xs : List α) :
    f (f s xs).1 [] = ((f s xs).1, []) := by
  have happ := h s xs []
  rw [List.append_nil] at happ
  have hstate := congrArg Prod.fst happ
  have hout := congrArg Prod.snd happ
  exact Prod.ext hstate.symm (List.self_eq_append_right.mp hout)

/-- **The cuts do not show.** -/
theorem Seamless.feed_eq {f : σ → List α → σ × List β} (h : Seamless f) (pieces : List (List α)) :
    ∀ {s : σ}, f s [] = (s, []) → feed f s pieces = f s pieces.flatten := by
  induction pieces with
  | nil => intro s hs; exact hs.symm
  | cons piece pieces ih =>
    intro s _
    rw [feed, List.flatten_cons, h s piece pieces.flatten, ih (h.nil_after s piece)]

/-! ## Item by item -/

@[grind] def letters (step : σ → α → σ × List β) : σ → List α → σ × List β
  | s, [] => (s, [])
  | s, a :: as =>
    let now := step s a
    let later := letters step now.1 as
    (later.1, now.2 ++ later.2)

theorem seamless_letters (step : σ → α → σ × List β) : Seamless (letters step) := by
  intro s xs
  induction xs generalizing s with
  | nil => intro ys; rfl
  | cons a as ih =>
    intro ys
    rw [List.cons_append, letters, letters, ih]
    simp only [List.append_assoc]

/-! ## One stage after another -/

@[grind] def andThen (f : σ → List α → σ × List β) (g : τ → List β → τ × List γ) (st : σ × τ) (xs : List α) :
    (σ × τ) × List γ :=
  let mid := f st.1 xs
  let out := g st.2 mid.2
  ((mid.1, out.1), out.2)

theorem Seamless.andThen {f : σ → List α → σ × List β} {g : τ → List β → τ × List γ} (hf : Seamless f)
    (hg : Seamless g) : Seamless (Streams.andThen f g) := by
  intro st xs ys
  simp only [Streams.andThen]
  rw [hf st.1 xs ys]
  dsimp only
  rw [hg]

end Streams
