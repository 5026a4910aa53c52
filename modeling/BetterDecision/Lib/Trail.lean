import Mathlib.Algebra.Group.Basic

/-!
# Trails of labelled steps

A step carries a label saying what it adds to some running total, and a trail of
steps carries the sum. `Trail.sound` is the induction over trails, done once: if
every step keeps an invariant and moves a measure by its label, so does every
trail.
-/

universe u v

/-- A sequence of steps and the sum of their labels. -/
inductive Trail {σ : Type u} {M : Type v} [AddMonoid M] (R : σ → M → σ → Prop) : σ → M → σ → Prop
  | refl (s : σ) : Trail R s 0 s
  | step {s t w : σ} {m n : M} (first : R s m t) (rest : Trail R t n w) : Trail R s (m + n) w

namespace Trail

variable {σ : Type u} {M : Type v} [AddMonoid M] {R : σ → M → σ → Prop}

theorem single {s t : σ} {m : M} (h : R s m t) : Trail R s m t := by
  have := Trail.step h (Trail.refl t)
  rwa [add_zero] at this

theorem trans {s t w : σ} {m n : M} (h : Trail R s m t) (k : Trail R t n w) : Trail R s (m + n) w := by
  induction h with
  | refl s => rwa [zero_add]
  | step first rest ih => rw [add_assoc]; exact .step first (ih k)

/-- A step and a trail, where only the sum of the labels is known. -/
theorem cons_of_eq {s t w : σ} {m n k : M} (h : R s m t) (rest : Trail R t n w) (hk : k = m + n) :
    Trail R s k w := hk ▸ .step h rest

/-- What every step keeps, a trail keeps. -/
theorem invariant {I : σ → Prop} (hstep : ∀ s m t, I s → R s m t → I t) {s t : σ} {m : M}
    (h : Trail R s m t) (hI : I s) : I t := by
  induction h with
  | refl s => exact hI
  | step first _ ih => exact ih (hstep _ _ _ hI first)

/-- **If every step keeps `I` and moves `μ` by its label, so does every trail.** -/
theorem sound {I : σ → Prop} {μ : σ → M} (hinv : ∀ s m t, I s → R s m t → I t)
    (hmeasure : ∀ s m t, I s → R s m t → μ t = μ s + m) {s t : σ} {m : M}
    (h : Trail R s m t) (hI : I s) : I t ∧ μ t = μ s + m := by
  induction h with
  | refl s => exact ⟨hI, (add_zero _).symm⟩
  | @step s t w m n first rest ih =>
    obtain ⟨hw, hμ⟩ := ih (hinv _ _ _ hI first)
    refine ⟨hw, ?_⟩
    rw [hμ, hmeasure _ _ _ hI first, add_assoc]

/-- A relation between the ends that every step satisfies and that composes. -/
theorem relation {P : σ → σ → Prop} (hrefl : ∀ s, P s s) (htrans : ∀ s t w, P s t → P t w → P s w)
    {I : σ → Prop} (hinv : ∀ s m t, I s → R s m t → I t)
    (hstep : ∀ s m t, I s → R s m t → P s t) {s t : σ} {m : M} (h : Trail R s m t) (hI : I s) :
    P s t := by
  induction h with
  | refl s => exact hrefl s
  | step first _ ih => exact htrans _ _ _ (hstep _ _ _ hI first) (ih (hinv _ _ _ hI first))

end Trail
