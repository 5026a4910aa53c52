import Mathlib.Data.List.Nodup
import Mathlib.Logic.Function.Basic
import Mathlib.Logic.Relation

/-!
# Jobs claimed through a status

A job is claimed by moving its status from free to held, which one worker alone can do.
The worker then runs it or gives it up, and closes it in either case; one that gave it
up may spoil it instead. A worker that has not run its job may hand it back, and any may
vanish at any time, the job staying held. A job may be cancelled while it is free, and
forgotten whenever.

However the workers' steps fall, no job is run twice (`Sound.once`), and one that was
spoiled or cancelled is never run (`Sound.not_ran_of_spoiled`, `Settled.steps`).
-/

universe u v

inductive JobStatus
  | unborn
  | free
  | held
  | closed
  /-- Over, and never run. -/
  | spoiled
  | gone
  deriving DecidableEq, Repr

/-- What a worker has claimed, and whether it may still run it. -/
inductive Claim (κ : Type u)
  | idle
  | holding (job : κ)
  /-- It gave the job up without running it. -/
  | quitting (job : κ)
  | closing (job : κ)

/-- The claim is on this job. -/
@[grind] def Claim.On {κ : Type u} (c : Claim κ) (k : κ) : Prop := c = .holding k ∨ c = .quitting k ∨ c = .closing k

@[ext] structure Jobs (κ : Type u) (ω : Type v) where
  status : κ → JobStatus
  claim : ω → Claim κ
  /-- The jobs run, newest first. -/
  ran : List κ

namespace Jobs

variable {κ : Type u} {ω : Type v}

section Status

variable [DecidableEq κ] {s : Jobs κ ω} {k j : κ}

@[grind] def setStatus (s : Jobs κ ω) (k : κ) (status : JobStatus) : Jobs κ ω :=
  { s with status := Function.update s.status k status }

@[simp] theorem setStatus_status (t : JobStatus) : (s.setStatus k t).status j = if j = k then t else s.status j :=
  Function.update_apply ..

@[simp] theorem setStatus_claim (t : JobStatus) : (s.setStatus k t).claim = s.claim := rfl

@[simp] theorem setStatus_ran (t : JobStatus) : (s.setStatus k t).ran = s.ran := rfl

theorem setStatus_self : s.setStatus k (s.status k) = s := by
  rw [setStatus, Function.update_eq_self]

end Status

section Claim

variable [DecidableEq ω] {s : Jobs κ ω} {x y : ω}

@[grind] def setClaim (s : Jobs κ ω) (x : ω) (claim : Claim κ) : Jobs κ ω :=
  { s with claim := Function.update s.claim x claim }

@[simp] theorem setClaim_claim (c : Claim κ) : (s.setClaim x c).claim y = if y = x then c else s.claim y :=
  Function.update_apply ..

@[simp] theorem setClaim_status (c : Claim κ) : (s.setClaim x c).status = s.status := rfl

@[simp] theorem setClaim_ran (c : Claim κ) : (s.setClaim x c).ran = s.ran := rfl

theorem setClaim_setClaim (c c' : Claim κ) : (s.setClaim x c).setClaim x c' = s.setClaim x c' := by
  simp only [setClaim, Function.update_idem]

theorem setClaim_self : s.setClaim x (s.claim x) = s := by
  rw [setClaim, Function.update_eq_self]

end Claim

/-- **What keeps a job from running twice.** -/
structure Sound (s : Jobs κ ω) : Prop where
  /-- No job is claimed by two workers. -/
  unique : ∀ x y k, (s.claim x).On k → (s.claim y).On k → x = y
  claimed : ∀ x k, (s.claim x).On k → s.status k ≠ .free ∧ s.status k ≠ .unborn
  /-- A job that may be run is held, if it is there. -/
  holding : ∀ x k, s.claim x = .holding k → s.status k = .held ∨ s.status k = .gone
  unrun : ∀ x k, s.claim x = .holding k ∨ s.claim x = .quitting k → k ∉ s.ran
  /-- A job that was run is not to be run again. -/
  spent : ∀ k ∈ s.ran, s.status k ≠ .free ∧ s.status k ≠ .unborn ∧ s.status k ≠ .spoiled
  once : s.ran.Nodup

/-- A job that is over: nobody will run it. -/
structure Settled (s : Jobs κ ω) (k : κ) : Prop where
  status : s.status k ≠ .free ∧ s.status k ≠ .unborn ∧ s.status k ≠ .held
  idle : ∀ x, s.claim x ≠ .holding k

section Sound

variable {s : Jobs κ ω} {x : ω} {k : κ}

theorem Sound.not_ran_of_spoiled (h : s.Sound) (hk : s.status k = .spoiled) : k ∉ s.ran :=
  fun hmem => (h.spent k hmem).2.2 hk

/-- A spoiled job is over. -/
theorem Sound.settled_of_spoiled (h : s.Sound) (hk : s.status k = .spoiled) : s.Settled k := by
  refine ⟨by simp [hk], fun x hx => ?_⟩
  rcases h.holding x k hx with hstatus | hstatus <;> simp [hk] at hstatus

/-- **Moving the statuses of jobs nobody has claimed keeps the jobs sound**, if none that ran
comes back. -/
theorem Sound.setStatuses (h : s.Sound) {f : κ → JobStatus}
    (hclaimed : ∀ y j, (s.claim y).On j → f j = s.status j ∨ f j = .gone)
    (hran : ∀ j ∈ s.ran, f j = s.status j ∨ f j = .gone) : Sound { s with status := f } where
  unique := h.unique
  claimed := by
    intro y j hy
    rcases hclaimed y j hy with hj | hj
    · simpa only [hj] using h.claimed y j hy
    · simp only [hj]
      decide
  holding := by
    intro y j hy
    rcases hclaimed y j (.inl hy) with hj | hj
    · simpa only [hj] using h.holding y j hy
    · exact .inr hj
  unrun := h.unrun
  spent := by
    intro j hj
    rcases hran j hj with he | he
    · simpa only [he] using h.spent j hj
    · simp only [he]
      decide
  once := h.once

/-- **Going on with a claim, or giving it up, keeps the jobs sound.** -/
theorem Sound.setClaim [DecidableEq ω] (h : s.Sound) {c : Claim κ} (hrun : ∀ j, c ≠ .holding j)
    (hquit : ∀ j, c = .quitting j → s.claim x = .holding j) (hclose : ∀ j, c = .closing j → (s.claim x).On j) :
    (s.setClaim x c).Sound := by
  have on : ∀ y j, ((s.setClaim x c).claim y).On j → (s.claim y).On j := by
    intro y j hy
    rw [setClaim_claim] at hy
    by_cases hyx : y = x
    · subst hyx
      rw [if_pos rfl] at hy
      rcases hy with hy | hy | hy
      · exact absurd hy (hrun j)
      · exact .inl (hquit j hy)
      · exact hclose j hy
    · rwa [if_neg hyx] at hy
  have holds : ∀ y j, (s.setClaim x c).claim y = .holding j → s.claim y = .holding j := by
    intro y j hy
    rw [setClaim_claim] at hy
    by_cases hyx : y = x
    · rw [if_pos hyx] at hy
      exact absurd hy (hrun j)
    · rwa [if_neg hyx] at hy
  constructor
  case unique => exact fun y z j hy hz => h.unique y z j (on y j hy) (on z j hz)
  case claimed => exact fun y j hy => h.claimed y j (on y j hy)
  case holding => exact fun y j hy => h.holding y j (holds y j hy)
  case unrun =>
    intro y j hy
    rcases hy with hy | hy
    · exact h.unrun y j (.inl (holds y j hy))
    · rw [setClaim_claim] at hy
      by_cases hyx : y = x
      · subst hyx
        rw [if_pos rfl] at hy
        exact h.unrun y j (.inl (hquit j hy))
      · rw [if_neg hyx] at hy
        exact h.unrun y j (.inr hy)
  case spent => exact h.spent
  case once => exact h.once

/-- A job its worker has done with may be moved on by it. -/
theorem Sound.settle [DecidableEq κ] (h : s.Sound) (hx : s.claim x = .quitting k ∨ s.claim x = .closing k) {t : JobStatus}
    (hborn : t ≠ .free ∧ t ≠ .unborn) (hran : k ∈ s.ran → t ≠ .spoiled) : (s.setStatus k t).Sound where
  unique := h.unique
  claimed := by
    intro y j hy
    rw [setStatus_status]
    split
    · exact hborn
    · exact h.claimed y j hy
  holding := by
    intro y j hy
    have hjk : j ≠ k := by
      rintro rfl
      obtain rfl := h.unique y x j (.inl hy) (.inr hx)
      rcases hx with hx | hx <;> rw [setStatus_claim, hx] at hy <;> cases hy
    rw [setStatus_status, if_neg hjk]
    exact h.holding y j hy
  unrun := h.unrun
  spent := by
    intro j hj
    rw [setStatus_status]
    by_cases hjk : j = k
    · subst hjk
      rw [if_pos rfl]
      exact ⟨hborn.1, hborn.2, hran hj⟩
    · rw [if_neg hjk]
      exact h.spent j hj
  once := h.once

end Sound

variable [DecidableEq κ] [DecidableEq ω]

inductive Step : Jobs κ ω → Jobs κ ω → Prop
  | create {s} (k : κ) : s.status k = .unborn → Step s (s.setStatus k .free)
  | claim {s} (x : ω) (k : κ) : s.status k = .free → s.claim x = .idle →
      Step s ((s.setStatus k .held).setClaim x (.holding k))
  /-- The job is handed back, if it is still there. -/
  | release {s} (x : ω) (k : κ) : s.claim x = .holding k →
      Step s ((if s.status k = .held then s.setStatus k .free else s).setClaim x .idle)
  | run {s} (x : ω) (k : κ) : s.claim x = .holding k →
      Step s { s.setClaim x (.closing k) with ran := k :: s.ran }
  /-- The worker will not run it. -/
  | quit {s} (x : ω) (k : κ) : s.claim x = .holding k → Step s (s.setClaim x (.quitting k))
  | fail {s} (x : ω) (k : κ) : s.claim x = .quitting k → Step s (s.setClaim x (.closing k))
  | spoil {s} (x : ω) (k : κ) : s.claim x = .quitting k →
      Step s (if s.status k = .held then s.setStatus k .spoiled else s)
  | close {s} (x : ω) (k : κ) : s.claim x = .closing k →
      Step s (if s.status k = .held then s.setStatus k .closed else s)
  | drop {s} (x : ω) : Step s (s.setClaim x .idle)
  | cancel {s} (doomed : κ → Prop) [DecidablePred doomed] :
      Step s { s with status := fun k => if doomed k ∧ s.status k = .free then .spoiled else s.status k }
  | forget {s} (doomed : κ → Prop) [DecidablePred doomed] :
      Step s { s with status := fun k => if doomed k ∧ s.status k ≠ .unborn then .gone else s.status k }

/-- Any number of steps. -/
abbrev Steps : Jobs κ ω → Jobs κ ω → Prop := Relation.ReflTransGen Step

section Steps

variable {s s' : Jobs κ ω} {x y : ω} {k j : κ}

/-- **Every step keeps the jobs sound.** -/
theorem Sound.step (h : s.Sound) (hs : Step s s') : s'.Sound := by
  cases hs with
  | create k hk =>
    refine h.setStatuses (f := Function.update s.status k .free) ?_ ?_
    · intro y j hy
      refine .inl (Function.update_of_ne ?_ ..)
      rintro rfl
      exact (h.claimed y j hy).2 hk
    · intro j hj
      refine .inl (Function.update_of_ne ?_ ..)
      rintro rfl
      exact (h.spent j hj).2.1 hk
  | claim x k hk hx =>
    -- a free job is unclaimed, so `x` is the only one to hold it
    have alone : ∀ y, ¬ (s.claim y).On k := fun y hy => (h.claimed y k hy).1 hk
    have notRan : k ∉ s.ran := fun hmem => (h.spent k hmem).1 hk
    have off : ∀ y j, y ≠ x → (((s.setStatus k .held).setClaim x (.holding k)).claim y).On j →
        (s.claim y).On j ∧ j ≠ k := by
      intro y j hyx hy
      rw [setClaim_claim, if_neg hyx] at hy
      refine ⟨hy, ?_⟩
      rintro rfl
      exact alone y hy
    have own : ∀ j, (((s.setStatus k .held).setClaim x (.holding k)).claim x).On j → j = k := by
      intro j hj
      rw [setClaim_claim, if_pos rfl] at hj
      rcases hj with hj | hj | hj
      · exact (Claim.holding.inj hj).symm
      · cases hj
      · cases hj
    have status : ∀ j, j ≠ k → ((s.setStatus k .held).setClaim x (.holding k)).status j = s.status j := by
      intro j hj
      rw [setClaim_status, setStatus_status, if_neg hj]
    have held : ((s.setStatus k .held).setClaim x (.holding k)).status k = .held := by simp
    constructor
    case unique =>
      intro y z j hy hz
      by_cases hyx : y = x <;> by_cases hzx : z = x
      · rw [hyx, hzx]
      · subst hyx
        exact absurd (own j hy) (off z j hzx hz).2
      · subst hzx
        exact absurd (own j hz) (off y j hyx hy).2
      · exact h.unique y z j (off y j hyx hy).1 (off z j hzx hz).1
    case claimed =>
      intro y j hy
      by_cases hyx : y = x
      · subst hyx
        rw [own j hy, held]
        decide
      · obtain ⟨hold, hjk⟩ := off y j hyx hy
        rw [status j hjk]
        exact h.claimed y j hold
    case holding =>
      intro y j hy
      by_cases hyx : y = x
      · subst hyx
        rw [own j (.inl hy)]
        exact .inl held
      · obtain ⟨-, hjk⟩ := off y j hyx (.inl hy)
        rw [setClaim_claim, if_neg hyx] at hy
        rw [status j hjk]
        exact h.holding y j hy
    case unrun =>
      intro y j hy
      by_cases hyx : y = x
      · subst hyx
        rw [own j (hy.imp_right .inl)]
        exact notRan
      · rw [setClaim_claim, if_neg hyx] at hy
        exact h.unrun y j hy
    case spent =>
      intro j hj
      have hjk : j ≠ k := fun he => notRan (he ▸ hj)
      rw [status j hjk]
      exact h.spent j hj
    case once => exact h.once
  | release x k hx =>
    have hidle : (s.setClaim x .idle).Sound := h.setClaim (by simp) (by simp) (by simp)
    have notRan : k ∉ s.ran := h.unrun x k (.inl hx)
    by_cases hheld : s.status k = .held
    · rw [if_pos hheld]
      have alone : ∀ y, ¬ ((s.setClaim x .idle).claim y).On k := by
        intro y hy
        rw [setClaim_claim] at hy
        by_cases hyx : y = x
        · rw [if_pos hyx] at hy
          rcases hy with hy | hy | hy <;> cases hy
        · rw [if_neg hyx] at hy
          exact hyx (h.unique y x k hy (.inl hx))
      refine hidle.setStatuses (f := Function.update s.status k .free) ?_ ?_
      · intro y j hy
        refine .inl (Function.update_of_ne ?_ ..)
        rintro rfl
        exact alone y hy
      · intro j hj
        refine .inl (Function.update_of_ne ?_ ..)
        rintro rfl
        exact notRan hj
    · rw [if_neg hheld]
      exact hidle
  | run x k hx =>
    have hclosing : (s.setClaim x (.closing k)).Sound :=
      h.setClaim (by simp) (by simp) fun j hj => .inl (by rw [hx, Claim.closing.inj hj])
    have notRan : k ∉ s.ran := h.unrun x k (.inl hx)
    have others : ∀ y, ((s.setClaim x (.closing k)).claim y).On k → y = x := by
      intro y hy
      by_contra hyx
      rw [setClaim_claim, if_neg hyx] at hy
      exact hyx (h.unique y x k hy (.inl hx))
    refine ⟨hclosing.unique, hclosing.claimed, hclosing.holding, ?_, ?_, List.nodup_cons.mpr ⟨notRan, h.once⟩⟩
    · intro y j hy hj
      rcases List.mem_cons.mp hj with rfl | hj
      · obtain rfl := others y (hy.imp_right .inl)
        rw [setClaim_claim, if_pos rfl] at hy
        rcases hy with hy | hy <;> cases hy
      · exact hclosing.unrun y j hy hj
    · intro j hj
      rcases List.mem_cons.mp hj with rfl | hj
      · rcases h.holding x j hx with hstatus | hstatus
        all_goals
          simp only [setClaim_status, hstatus]
          decide
      · exact h.spent j hj
  | quit x k hx => exact h.setClaim (by simp) (fun j hj => by rw [hx, Claim.quitting.inj hj]) (by simp)
  | fail x k hx => exact h.setClaim (by simp) (by simp) fun j hj => .inr (.inl (by rw [hx, Claim.closing.inj hj]))
  | spoil x k hx =>
    split
    · exact h.settle (.inl hx) (by decide) fun hmem => absurd hmem (h.unrun x k (.inr hx))
    · exact h
  | close x k hx =>
    split
    · exact h.settle (.inr hx) (by decide) (by simp)
    · exact h
  | drop x => exact h.setClaim (by simp) (by simp) (by simp)
  | cancel doomed =>
    refine h.setStatuses ?_ ?_
    · exact fun y j hy => .inl (if_neg fun hc => (h.claimed y j hy).1 hc.2)
    · exact fun j hj => .inl (if_neg fun hc => (h.spent j hj).1 hc.2)
  | forget doomed =>
    have hmove : ∀ j, (if doomed j ∧ s.status j ≠ .unborn then JobStatus.gone else s.status j) = s.status j ∨
        (if doomed j ∧ s.status j ≠ .unborn then JobStatus.gone else s.status j) = .gone := by
      intro j
      split
      · exact .inr rfl
      · exact .inl rfl
    exact h.setStatuses (fun y j _ => hmove j) fun j _ => hmove j

/-- **A job that is over stays over, and is not run.** -/
theorem Settled.step (h : s.Settled k) (hs : Step s s') :
    s'.Settled k ∧ (k ∈ s'.ran → k ∈ s.ran) := by
  have other : ∀ {x : ω} {c : Claim κ}, c ≠ .holding k → ∀ y, (s.setClaim x c).claim y ≠ .holding k := by
    intro x c hc y hy
    rw [setClaim_claim] at hy
    split at hy
    · exact hc hy
    · exact h.idle y hy
  cases hs with
  | create j hj =>
    have hkj : k ≠ j := fun he => h.status.2.1 (he ▸ hj)
    exact ⟨⟨by simpa [hkj] using h.status, h.idle⟩, id⟩
  | claim x j hj hx =>
    have hkj : k ≠ j := fun he => h.status.1 (he ▸ hj)
    refine ⟨⟨by simpa [hkj] using h.status, ?_⟩, id⟩
    exact other (x := x) (c := .holding j) fun he => hkj (Claim.holding.inj he).symm
  | release x j hx =>
    have hkj : k ≠ j := fun he => h.idle x (he ▸ hx)
    split
    · exact ⟨⟨by simpa [hkj] using h.status, other (x := x) (c := .idle) (by simp)⟩, id⟩
    · exact ⟨⟨h.status, other (x := x) (by simp)⟩, id⟩
  | run x j hx =>
    have hkj : k ≠ j := fun he => h.idle x (he ▸ hx)
    refine ⟨⟨h.status, other (x := x) (by simp)⟩, ?_⟩
    intro hk
    rcases List.mem_cons.mp hk with hk | hk
    · exact absurd hk hkj
    · exact hk
  | quit x j hx => exact ⟨⟨h.status, other (by simp)⟩, id⟩
  | fail x j hx => exact ⟨⟨h.status, other (by simp)⟩, id⟩
  | spoil x j hx | close x j hx =>
    split
    · refine ⟨⟨?_, h.idle⟩, id⟩
      rw [setStatus_status]
      split
      · decide
      · exact h.status
    · exact ⟨h, id⟩
  | drop x => exact ⟨⟨h.status, other (by simp)⟩, id⟩
  | cancel doomed =>
    refine ⟨⟨?_, h.idle⟩, id⟩
    simp only [if_neg fun hc : doomed k ∧ s.status k = .free => h.status.1 hc.2]
    exact h.status
  | forget doomed =>
    refine ⟨⟨?_, h.idle⟩, id⟩
    dsimp only
    split
    · decide
    · exact h.status

theorem Sound.steps (h : s.Sound) (hs : Steps s s') : s'.Sound := by
  induction hs with
  | refl => exact h
  | tail _ hstep ih => exact ih.step hstep

theorem Settled.steps (h : s.Settled k) (hs : Steps s s') : s'.Settled k ∧ (k ∈ s'.ran → k ∈ s.ran) := by
  induction hs with
  | refl => exact ⟨h, id⟩
  | tail _ hstep ih =>
    obtain ⟨hsettled, hran⟩ := ih
    obtain ⟨hnext, hran'⟩ := hsettled.step hstep
    exact ⟨hnext, fun hk => hran (hran' hk)⟩

end Steps

end Jobs
