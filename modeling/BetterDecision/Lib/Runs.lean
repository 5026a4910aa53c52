import Mathlib.Data.List.Forall2
import Mathlib.Data.List.ReduceOption

/-!
# Calls that may refuse, and runs of them

A call either computes a new state or refuses with an error. A refused call
writes nothing, so a run simply carries on from the state it had.

`run_invariant` is the induction over runs, done once. `run_invariant_of_guarded`
is the same for a property that only survives calls made under a condition: it
follows the run, asking the condition of each call at the state the call is made
in.
-/

universe u v w

/-! ## Refusing -/

/-- Stop with `e` if `c` holds. -/
@[grind] def refuse {ε : Type u} (c : Prop) [Decidable c] (e : ε) : Except ε Unit :=
  if c then .error e else .ok ()

/-- What is there, or a refusal. -/
@[grind] def found {ε : Type u} {α : Type v} (o : Option α) (e : ε) : Except ε α :=
  match o with
  | some a => .ok a
  | none => .error e

/-- A check that is made only under a condition. -/
@[grind] def checkIf {ε : Type u} (c : Prop) [Decidable c] (check : Except ε Unit) : Except ε Unit :=
  if c then check else .ok ()

theorem checkIf_eq_ok {ε : Type u} {c : Prop} [Decidable c] {check : Except ε Unit} {u : Unit} :
    checkIf c check = .ok u ↔ (c → check = .ok ()) := by
  by_cases hc : c
  · rw [show checkIf c check = check from if_pos hc]
    exact ⟨fun h _ => h, fun h => h hc⟩
  · rw [show checkIf c check = .ok () from if_neg hc]
    exact ⟨fun _ h => absurd h hc, fun _ => rfl⟩

theorem refuse_eq_ok {ε : Type u} {c : Prop} [Decidable c] {e : ε} {u : Unit} :
    refuse c e = .ok u ↔ ¬ c := by
  by_cases hc : c
  · rw [show refuse c e = .error e from if_pos hc]
    exact ⟨nofun, fun h => absurd hc h⟩
  · rw [show refuse c e = .ok () from if_neg hc]
    exact ⟨fun _ => hc, fun _ => rfl⟩

theorem found_eq_ok {ε : Type u} {α : Type v} {o : Option α} {e : ε} {a : α} :
    found o e = .ok a ↔ o = some a := by
  cases o with
  | none => exact ⟨nofun, nofun⟩
  | some b => exact ⟨fun h => congrArg some (Except.ok.inj h), fun h => congrArg Except.ok (Option.some.inj h)⟩

theorem bind_ok {ε : Type u} {α β : Type v} (a : α) (f : α → Except ε β) : Except.ok a >>= f = f a := rfl

theorem bind_error {ε : Type u} {α β : Type v} (e : ε) (f : α → Except ε β) : Except.error e >>= f = .error e := rfl

/-- A computation that went through went through step by step. -/
theorem bind_eq_ok {ε : Type u} {α β : Type v} {x : Except ε α} {f : α → Except ε β} {b : β} :
    x >>= f = .ok b ↔ ∃ a, x = .ok a ∧ f a = .ok b := by
  cases x with
  | error e =>
    rw [bind_error]
    exact ⟨nofun, fun ⟨_, h, _⟩ => nomatch h⟩
  | ok a =>
    rw [bind_ok]
    exact ⟨fun h => ⟨a, rfl, h⟩, fun ⟨_, ha, h⟩ => Except.ok.inj ha ▸ h⟩

/-- A computation that is seen to go through has a result. -/
theorem exists_of_isOk {ε : Type u} {α : Type v} {x : Except ε α} (h : x.isOk = true) : ∃ a, x = .ok a := by
  cases x with
  | error e => cases h
  | ok a => exact ⟨a, rfl⟩

/-- A computation that failed failed at one of its steps. -/
theorem bind_eq_error {ε : Type u} {α β : Type v} {x : Except ε α} {f : α → Except ε β} {e : ε} :
    x >>= f = .error e ↔ x = .error e ∨ ∃ a, x = .ok a ∧ f a = .error e := by
  cases x with
  | error e' =>
    rw [bind_error]
    refine ⟨fun h => .inl (congrArg Except.error (Except.error.inj h)), fun h => ?_⟩
    obtain h | ⟨_, ha, -⟩ := h
    · exact congrArg Except.error (Except.error.inj h)
    · cases ha
  | ok a =>
    rw [bind_ok]
    refine ⟨fun h => .inr ⟨a, rfl, h⟩, fun h => ?_⟩
    obtain h | ⟨_, ha, h⟩ := h
    · cases h
    · exact Except.ok.inj ha ▸ h

theorem found_eq_error {ε : Type u} {α : Type v} {o : Option α} {e e' : ε} :
    found o e = .error e' ↔ o = none ∧ e' = e := by
  cases o with
  | none => exact ⟨fun h => ⟨rfl, (Except.error.inj h).symm⟩, fun h => congrArg Except.error h.2.symm⟩
  | some b => exact ⟨nofun, fun h => nomatch h.1⟩

/-- A computation whose steps all return returns. -/
theorem bind_returns {ε : Type u} {α β : Type v} {x : Except ε α} {f : α → Except ε β} {a : α}
    (hx : x = .ok a) (hf : ∃ b, f a = .ok b) : ∃ b, x >>= f = .ok b := by
  obtain ⟨b, hb⟩ := hf
  exact ⟨b, bind_eq_ok.mpr ⟨a, hx, hb⟩⟩

theorem mapM_returns {ε : Type u} {α β : Type v} {f : α → Except ε β} {xs : List α}
    (h : ∀ x ∈ xs, ∃ b, f x = .ok b) : ∃ bs, xs.mapM f = .ok bs := by
  induction xs with
  | nil => exact ⟨[], rfl⟩
  | cons x xs ih =>
    obtain ⟨b, hb⟩ := h x List.mem_cons_self
    obtain ⟨bs, hbs⟩ := ih fun y hy => h y (List.mem_cons_of_mem _ hy)
    rw [List.mapM_cons]
    exact bind_returns hb (bind_returns hbs ⟨_, rfl⟩)

/-- A list mapped without a refusal is mapped element by element. -/
theorem mapM_eq_ok {ε : Type u} {α β : Type v} {f : α → Except ε β} {xs : List α} {ys : List β} :
    xs.mapM f = .ok ys ↔ List.Forall₂ (fun x y => f x = .ok y) xs ys := by
  induction xs generalizing ys with
  | nil => simp [pure, Except.pure, eq_comm]
  | cons x xs ih =>
    rw [List.mapM_cons]
    constructor
    · intro h
      obtain ⟨y, hy, h⟩ := bind_eq_ok.mp h
      obtain ⟨ys', hys, h⟩ := bind_eq_ok.mp h
      obtain rfl : y :: ys' = ys := Except.ok.inj h
      exact .cons hy (ih.mp hys)
    · intro h
      cases h with
      | cons hy hys => exact bind_eq_ok.mpr ⟨_, hy, bind_eq_ok.mpr ⟨_, ih.mpr hys, rfl⟩⟩

theorem mapM_eq_ok_of_forall {ε : Type u} {α β : Type v} {f : α → Except ε β} {g : α → β} {xs : List α}
    (h : ∀ x ∈ xs, f x = .ok (g x)) : xs.mapM f = .ok (xs.map g) := by
  refine mapM_eq_ok.mpr (List.forall₂_map_right_iff.mpr (List.forall₂_same.mpr ?_))
  exact h

/-- A list is mapped without a refusal iff each element meets what its image takes. -/
theorem mapM_eq_ok_map {ε : Type u} {α β : Type v} {f : α → Except ε β} {g : α → β} {P : α → Prop}
    (h : ∀ x y, f x = .ok y ↔ y = g x ∧ P x) {xs : List α} {ys : List β} :
    xs.mapM f = .ok ys ↔ (∀ x ∈ xs, P x) ∧ ys = xs.map g := by
  rw [mapM_eq_ok]
  induction xs generalizing ys with
  | nil => simp
  | cons x xs ih =>
    rw [List.forall_mem_cons, List.map_cons]
    constructor
    · intro hall
      cases hall with
      | cons hy hys =>
        obtain ⟨rfl, hx⟩ := (h _ _).mp hy
        obtain ⟨hxs, rfl⟩ := ih.mp hys
        exact ⟨⟨hx, hxs⟩, rfl⟩
    · rintro ⟨⟨hx, hxs⟩, rfl⟩
      exact .cons ((h _ _).mpr ⟨rfl, hx⟩) (ih.mpr ⟨hxs, rfl⟩)

/-- Every element of a list mapped without a refusal was mapped without one. -/
theorem exists_of_mapM_eq_ok {ε : Type u} {α β : Type v} {f : α → Except ε β} {xs : List α} {ys : List β}
    (h : xs.mapM f = .ok ys) : ∀ x ∈ xs, ∃ y, f x = .ok y := by
  have hall := mapM_eq_ok.mp h
  clear h
  induction hall with
  | nil => exact fun x hx => by cases hx
  | cons hy _ ih =>
    intro x hx
    rcases List.mem_cons.mp hx with rfl | hx
    · exact ⟨_, hy⟩
    · exact ih x hx

/-- Of two lists related element by element, each element of the one has its partner. -/
theorem exists_partner {α β : Type*} {R : α → β → Prop} {xs : List α} {ys : List β} (h : List.Forall₂ R xs ys) :
    (∀ x ∈ xs, ∃ y ∈ ys, R x y) ∧ ∀ y ∈ ys, ∃ x ∈ xs, R x y := by
  induction h with
  | nil => exact ⟨nofun, nofun⟩
  | @cons x y xs ys hxy _ ih =>
    constructor
    · intro w hw
      rcases List.mem_cons.mp hw with rfl | hw
      · exact ⟨y, List.mem_cons_self, hxy⟩
      · obtain ⟨z, hz, hwz⟩ := ih.1 w hw
        exact ⟨z, List.mem_cons_of_mem _ hz, hwz⟩
    · intro z hz
      rcases List.mem_cons.mp hz with rfl | hz
      · exact ⟨x, List.mem_cons_self, hxy⟩
      · obtain ⟨w, hw, hwz⟩ := ih.2 z hz
        exact ⟨w, List.mem_cons_of_mem _ hw, hwz⟩

/-- A list mapped to what some of its elements give: these are the usable ones, in order. -/
theorem mapM_usable {ε : Type u} {α β : Type v} {f : α → Except ε (Option β)} {usable : α → Bool}
    (hsome : ∀ x o, f x = .ok o → o.isSome = usable x) {xs : List α} {os : List (Option β)} (h : xs.mapM f = .ok os) :
    List.Forall₂ (fun x b => f x = .ok (some b)) (xs.filter usable) os.reduceOption := by
  have hall := mapM_eq_ok.mp h
  clear h
  induction hall with
  | nil => exact .nil
  | @cons x o xs os hx _ ih =>
    have hu := hsome x o hx
    cases o with
    | none => rwa [List.filter_cons_of_neg (by simp [← hu]), List.reduceOption_cons_of_none]
    | some b =>
      rw [List.filter_cons_of_pos (by simp [← hu]), List.reduceOption_cons_of_some]
      exact .cons hx ih

/-- An element that gives nothing can be left out. -/
theorem mapM_leave_out {ε : Type u} {α β : Type v} {f : α → Except ε (Option β)} {x : α} {ys : List α}
    (hx : f x = .ok none) : ∀ {xs : List α} {os : List (Option β)}, (xs ++ x :: ys).mapM f = .ok os →
      ∃ os', (xs ++ ys).mapM f = .ok os' ∧ os'.reduceOption = os.reduceOption
  | [], os, h => by
    rw [List.nil_append, List.mapM_cons] at h
    obtain ⟨o, ho, h⟩ := bind_eq_ok.mp h
    obtain ⟨os', hos', h⟩ := bind_eq_ok.mp h
    obtain rfl : none = o := Except.ok.inj (hx.symm.trans ho)
    obtain rfl : none :: os' = os := Except.ok.inj h
    exact ⟨os', hos', (List.reduceOption_cons_of_none os').symm⟩
  | w :: xs, os, h => by
    rw [List.cons_append, List.mapM_cons] at h
    obtain ⟨o, ho, h⟩ := bind_eq_ok.mp h
    obtain ⟨rest, hrest, h⟩ := bind_eq_ok.mp h
    obtain rfl : o :: rest = os := Except.ok.inj h
    obtain ⟨rest', hrest', heq⟩ := mapM_leave_out hx hrest
    refine ⟨o :: rest', ?_, ?_⟩
    · rw [List.cons_append, List.mapM_cons]
      exact bind_eq_ok.mpr ⟨o, ho, bind_eq_ok.mpr ⟨rest', hrest', rfl⟩⟩
    · cases o with
      | none => rw [List.reduceOption_cons_of_none, List.reduceOption_cons_of_none, heq]
      | some b => rw [List.reduceOption_cons_of_some, List.reduceOption_cons_of_some, heq]

theorem pure_eq_ok {ε : Type u} {α : Type v} {a b : α} :
    (pure a : Except ε α) = .ok b ↔ a = b := ⟨Except.ok.inj, congrArg Except.ok⟩

/-- What an accumulating loop keeps, if no round of it refuses. -/
theorem foldlM_invariant {ε : Type u} {σ ι : Type v} {f : σ → ι → Except ε σ} {I : σ → Prop}
    (hstep : ∀ s x s', f s x = .ok s' → I s → I s') :
    ∀ (xs : List ι) {s s' : σ}, xs.foldlM f s = .ok s' → I s → I s'
  | [], s, s', h, hI => by
      rw [List.foldlM_nil, pure_eq_ok] at h
      exact h ▸ hI
  | x :: xs, s, s', h, hI => by
      rw [List.foldlM_cons, bind_eq_ok] at h
      obtain ⟨m, h1, h2⟩ := h
      exact foldlM_invariant hstep xs h2 (hstep s x m h1 hI)

/-! ## Runs -/

section Runs

variable {ε : Type u} {σ : Type v} {ι : Type w} {step : σ → ι → Except ε σ}

/-- The state after a call: what it computed, or the old state if it refused. -/
@[grind] def serve (step : σ → ι → Except ε σ) (s : σ) (c : ι) : σ :=
  match step s c with
  | .ok s' => s'
  | .error _ => s

/-- The state after a run of calls. -/
@[grind] def run (step : σ → ι → Except ε σ) (s : σ) (calls : List ι) : σ := calls.foldl (serve step) s

/-- Every call of the run is made in a state where `G` allows it. -/
@[grind] def Guarded (step : σ → ι → Except ε σ) (G : σ → ι → Prop) : σ → List ι → Prop
  | _, [] => True
  | s, c :: cs => G s c ∧ Guarded step G (serve step s c) cs

@[simp] theorem run_nil (s : σ) : run step s [] = s := rfl

theorem run_cons (s : σ) (c : ι) (cs : List ι) :
    run step s (c :: cs) = run step (serve step s c) cs := rfl

theorem run_append (s : σ) (cs ds : List ι) :
    run step s (cs ++ ds) = run step (run step s cs) ds := by
  simp [run]

theorem run_concat (s : σ) (cs : List ι) (c : ι) :
    run step s (cs ++ [c]) = serve step (run step s cs) c := by
  simp [run]

theorem serve_of_ok {s s' : σ} {c : ι} (h : step s c = .ok s') : serve step s c = s' := by
  simp [serve, h]

/-- What a call keeps when it goes through, it keeps. -/
theorem serve_invariant {I : σ → Prop} {s : σ} {c : ι}
    (h : ∀ s', step s c = .ok s' → I s') (hI : I s) : I (serve step s c) := by
  unfold serve
  split
  · exact h _ ‹_›
  · exact hI

/-- **What every call keeps holds after every run.** -/
theorem run_invariant {I : σ → Prop} (hstep : ∀ s c s', I s → step s c = .ok s' → I s')
    (cs : List ι) {s : σ} (hI : I s) : I (run step s cs) := by
  induction cs generalizing s with
  | nil => exact hI
  | cons c cs ih =>
    rw [run_cons]
    exact ih (serve_invariant (fun s' h => hstep s c s' hI h) hI)

/-- The same, for what the calls of this run keep. -/
theorem run_invariant_of_mem {I : σ → Prop} (cs : List ι)
    (hstep : ∀ s c s', c ∈ cs → I s → step s c = .ok s' → I s') {s : σ} (hI : I s) : I (run step s cs) := by
  induction cs generalizing s with
  | nil => exact hI
  | cons c cs ih =>
    rw [run_cons]
    refine ih (fun s c' s' hc => hstep s c' s' (List.mem_cons_of_mem _ hc)) ?_
    exact serve_invariant (fun s' h => hstep s c s' List.mem_cons_self hI h) hI

/-- **What every allowed call keeps holds after every run of allowed calls.** -/
theorem run_invariant_of_guarded {I : σ → Prop} {G : σ → ι → Prop}
    (hstep : ∀ s c s', I s → G s c → step s c = .ok s' → I s')
    (cs : List ι) {s : σ} (hg : Guarded step G s cs) (hI : I s) : I (run step s cs) := by
  induction cs generalizing s with
  | nil => exact hI
  | cons c cs ih =>
    rw [run_cons]
    exact ih hg.2 (serve_invariant (fun s' h => hstep s c s' hI hg.1 h) hI)

/-- A run is allowed call by call, whatever the calls' outcome. -/
theorem guarded_append {G : σ → ι → Prop} {s : σ} {cs ds : List ι} :
    Guarded step G s (cs ++ ds) ↔ Guarded step G s cs ∧ Guarded step G (run step s cs) ds := by
  induction cs generalizing s with
  | nil => simp [Guarded]
  | cons c cs ih => rw [List.cons_append, Guarded, ih, run_cons, Guarded, and_assoc]

instance guardedDecidable {G : σ → ι → Prop} [∀ s c, Decidable (G s c)] :
    ∀ (s : σ) (cs : List ι), Decidable (Guarded step G s cs)
  | _, [] => inferInstanceAs (Decidable True)
  | s, c :: cs =>
      haveI := guardedDecidable (G := G) (serve step s c) cs
      inferInstanceAs (Decidable (G s c ∧ Guarded step G (serve step s c) cs))

end Runs
