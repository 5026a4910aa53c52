import Mathlib.Algebra.BigOperators.Group.List.Basic
import Mathlib.Data.List.Induction
import BetterDecision.Lib.Keyed

/-!
# Maps that keep the order of their keys

A map as JavaScript's `Map` is one: an entry stays where its key first came. Filled from a
list of elements, it has the keys of the elements, each once and in the order of their
first ones (`keys_fill`), and under a key what the elements with that key make of it
(`lookup_fill`).
-/

namespace InOrder

universe u v w

variable {κ : Type u} {β : Type v} {ε : Type w} [DecidableEq κ]

/-- `map.set(k, f(map.get(k)))`. -/
@[grind] def upsert (k : κ) (f : Option β → β) : List (κ × β) → List (κ × β)
  | [] => [(k, f none)]
  | (k', b) :: m => if k' = k then (k, f (some b)) :: m else (k', b) :: upsert k f m

@[grind] def fill (key : ε → κ) (f : ε → Option β → β) (es : List ε) : List (κ × β) :=
  es.foldl (fun m e => upsert (key e) (f e) m) []

/-- A key added to those that came before it. -/
@[grind] def addKey (keys : List κ) (k : κ) : List κ := if k ∈ keys then keys else keys ++ [k]

section Upsert

variable {k : κ} {f : Option β → β} {m : List (κ × β)}

theorem keys_upsert : (upsert k f m).map Prod.fst = addKey (m.map Prod.fst) k := by
  induction m with
  | nil => rfl
  | cons p m ih =>
    obtain ⟨k', b⟩ := p
    rw [upsert]
    by_cases h : k' = k
    · subst h
      rw [if_pos rfl, List.map_cons, List.map_cons, addKey, if_pos List.mem_cons_self]
    · have hmem : k ∈ ((k', b) :: m).map Prod.fst ↔ k ∈ m.map Prod.fst := by
        rw [List.map_cons, List.mem_cons]
        exact or_iff_right (Ne.symm h)
      rw [if_neg h, List.map_cons, ih, addKey, addKey]
      simp only [hmem]
      split <;> rfl

theorem lookup_upsert [BEq κ] [LawfulBEq κ] (k' : κ) : (upsert k f m).lookup k' = if k' = k then some (f (m.lookup k)) else m.lookup k' := by
  induction m with
  | nil => exact lookup_cons_if k'
  | cons p m ih =>
    obtain ⟨i, b⟩ := p
    rw [upsert]
    by_cases hi : i = k
    · subst hi
      rw [if_pos rfl, lookup_cons_if, lookup_cons_if, lookup_cons_if, if_pos rfl]
      split <;> rfl
    · rw [if_neg hi, lookup_cons_if, ih, lookup_cons_if, lookup_cons_if, if_neg (Ne.symm hi)]
      by_cases hk : k' = k
      · rw [if_pos hk, if_pos hk, if_neg fun h => hi (h.symm.trans hk)]
      · rw [if_neg hk, if_neg hk]

end Upsert

/-! ## Keys in the order they come -/

theorem mem_addKey {keys : List κ} {k j : κ} : j ∈ addKey keys k ↔ j ∈ keys ∨ j = k := by
  rw [addKey]
  split
  · next h => exact ⟨.inl, fun hj => hj.elim id fun he => he ▸ h⟩
  · rw [List.mem_append, List.mem_singleton]

theorem nodup_addKey {keys : List κ} {k : κ} (h : keys.Nodup) : (addKey keys k).Nodup := by
  rw [addKey]
  split
  · exact h
  · next hk => exact h.append (List.nodup_singleton k) (List.disjoint_singleton.mpr hk)

/-- The keys of the elements, as they first come. -/
@[grind] def firstKeys (key : ε → κ) (es : List ε) : List κ := es.foldl (fun keys e => addKey keys (key e)) []

variable {key : ε → κ} {f : ε → Option β → β} {es : List ε}

theorem firstKeys_concat (e : ε) : firstKeys key (es ++ [e]) = addKey (firstKeys key es) (key e) := by
  rw [firstKeys, List.foldl_append]
  rfl

theorem mem_firstKeys {k : κ} : k ∈ firstKeys key es ↔ ∃ e ∈ es, key e = k := by
  induction es using List.reverseRecOn with
  | nil => simp [firstKeys]
  | append_singleton es e ih =>
    rw [firstKeys_concat, mem_addKey, ih]
    constructor
    · rintro (⟨e', he', hk⟩ | rfl)
      · exact ⟨e', List.mem_append_left _ he', hk⟩
      · exact ⟨e, List.mem_append_right _ List.mem_cons_self, rfl⟩
    · rintro ⟨e', he', hk⟩
      rcases List.mem_append.mp he' with he' | he'
      · exact .inl ⟨e', he', hk⟩
      · exact .inr (List.mem_singleton.mp he' ▸ hk.symm)

theorem nodup_firstKeys : (firstKeys key es).Nodup := by
  induction es using List.reverseRecOn with
  | nil => exact List.nodup_nil
  | append_singleton es e ih =>
    rw [firstKeys_concat]
    exact nodup_addKey ih

theorem fill_concat (e : ε) : fill key f (es ++ [e]) = upsert (key e) (f e) (fill key f es) := by
  rw [fill, List.foldl_append]
  rfl

theorem keys_fill : (fill key f es).map Prod.fst = firstKeys key es := by
  induction es using List.reverseRecOn with
  | nil => rfl
  | append_singleton es e ih => rw [fill_concat, keys_upsert, ih, firstKeys_concat]

theorem keyed_fill : Keyed Prod.fst (fill key f es) := by
  rw [Keyed, keys_fill]
  exact nodup_firstKeys

/-- What a key's elements make of its entry. -/
theorem lookup_fill [BEq κ] [LawfulBEq κ] (k : κ) :
    (fill key f es).lookup k = (es.filter (fun e => key e = k)).foldl (fun o e => some (f e o)) none := by
  induction es using List.reverseRecOn with
  | nil => rfl
  | append_singleton es e ih =>
    rw [fill_concat, lookup_upsert, List.filter_append, List.foldl_append, ← ih]
    by_cases h : k = key e
    · subst h
      rw [if_pos rfl, List.filter_cons_of_pos (by simp)]
      rfl
    · rw [if_neg h, List.filter_cons_of_neg (by simpa using Ne.symm h)]
      rfl

/-- **Elements summed key by key.** -/
theorem sum_by_key {μ : Type*} [AddCommMonoid μ] {key : ε → κ} (amount : ε → μ) {keys : List κ} (hkeys : keys.Nodup)
    {es : List ε} (hes : ∀ e ∈ es, key e ∈ keys) :
    (keys.map fun k => ((es.filter (fun e => key e = k)).map amount).sum).sum = (es.map amount).sum := by
  induction keys generalizing es with
  | nil =>
    have hnil : es = [] := List.eq_nil_iff_forall_not_mem.mpr fun e he => List.not_mem_nil (hes e he)
    rw [hnil]
    rfl
  | cons k keys ih =>
    obtain ⟨hk, hkeys⟩ := List.nodup_cons.mp hkeys
    have hrest : ∀ e ∈ es.filter (fun e => !decide (key e = k)), key e ∈ keys := by
      intro e he
      obtain ⟨he, hne⟩ := List.mem_filter.mp he
      exact (List.mem_cons.mp (hes e he)).resolve_left (by simpa using hne)
    have hsame : keys.map (fun j => ((es.filter (fun e => key e = j)).map amount).sum) =
        keys.map (fun j => (((es.filter (fun e => !decide (key e = k))).filter (fun e => key e = j)).map amount).sum) := by
      refine List.map_congr_left fun j hj => ?_
      rw [List.filter_filter]
      congr 2
      refine List.filter_congr fun e _ => ?_
      have hjk : j ≠ k := fun h => hk (h ▸ hj)
      by_cases hej : key e = j <;> simp [hej, hjk]
    rw [List.map_cons, List.sum_cons, hsame, ih hkeys hrest, ← List.sum_append, ← List.map_append]
    exact ((List.filter_append_perm _ es).map amount).sum_eq

end InOrder
