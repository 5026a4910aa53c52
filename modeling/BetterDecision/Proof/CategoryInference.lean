import BetterDecision.Lib.Keyed
import BetterDecision.Lib.Runs
import BetterDecision.Model.CategoryInference

/-!
# Many descriptions are inferred as one is

A merchant token has nothing but capitals, digits and blanks, so the fold of the batch
leaves it alone (`collationKey_normalize`). With that a tier of the batch is the query of
the single call, token by token (`resolveRules_eq`, `resolveSlugs_eq`,
`resolveCategories_eq`), and each leaves open what the single call leaves open.
-/

namespace BetterDecision

open Patterns Pattern

variable {T : TextTables}

/-! ## What a token is made of -/

def TokenText (s : Str) : Prop := ∀ c ∈ s, isTokenChar c = true ∨ c = ' '

theorem TokenText.subset {s s' : Str} (h : TokenText s) (hsub : s' ⊆ s) : TokenText s' := fun c hc => h c (hsub hc)

theorem tokenText_collapse (s : Str) : TokenText (collapseToTokens s) := by
  intro c hc
  rcases mem_replaceAll_many c (mem_of_mem_trim hc) with hblank | ⟨hc, -⟩
  · exact .inr (List.mem_singleton.mp hblank)
  · rcases mem_replaceAll_many c hc with hblank | ⟨-, htest⟩
    · exact .inr (List.mem_singleton.mp hblank)
    · exact .inl (by simpa using htest)

theorem mem_of_mem_splitOnP {p : Char → Bool} {s t : Str} (ht : t ∈ s.splitOnP p) : t ⊆ s := by
  induction s generalizing t with
  | nil =>
    rw [List.splitOnP_nil] at ht
    exact List.mem_singleton.mp ht ▸ List.Subset.refl _
  | cons c s ih =>
    rw [List.splitOnP_cons_eq_if_modifyHead] at ht
    split at ht
    · rcases List.mem_cons.mp ht with rfl | ht
      · exact List.nil_subset _
      · exact List.subset_cons_of_subset c (ih ht)
    · rcases hsplit : s.splitOnP p with _ | ⟨first, rest⟩
      · rw [hsplit] at ht
        cases ht
      · rw [hsplit, List.modifyHead_cons] at ht
        rcases List.mem_cons.mp ht with rfl | ht
        · exact List.cons_subset_cons c (ih (hsplit ▸ List.mem_cons_self))
        · exact List.subset_cons_of_subset c (ih (hsplit ▸ List.mem_cons_of_mem first ht))

theorem mem_of_mem_intersperse {α : Type} {sep x : α} {xs : List α} (h : x ∈ xs.intersperse sep) : x = sep ∨ x ∈ xs := by
  induction xs with
  | nil => cases h
  | cons y xs ih =>
    cases xs with
    | nil => exact .inr h
    | cons z xs =>
      rw [List.intersperse_cons_cons] at h
      rcases List.mem_cons.mp h with rfl | h
      · exact .inr List.mem_cons_self
      · rcases List.mem_cons.mp h with rfl | h
        · exact .inl rfl
        · exact (ih h).imp_right (List.mem_cons_of_mem y)

theorem tokenText_join {tokens : List Str} (h : ∀ t ∈ tokens, TokenText t) : TokenText (joinTokens tokens) := by
  intro c hc
  obtain ⟨part, hpart, hc⟩ := List.mem_flatten.mp hc
  rcases mem_of_mem_intersperse hpart with rfl | hpart
  · exact .inr (List.mem_singleton.mp hc)
  · exact h part hpart c hc

theorem dropStopword_subset (tokens : List Str) : dropStopword tokens ⊆ tokens := by
  cases tokens with
  | nil => exact List.Subset.refl _
  | cons token tokens =>
    rw [dropStopword]
    split
    · exact List.subset_cons_self token tokens
    · exact List.Subset.refl _

theorem dropCompanyForms_subset (tokens : List Str) : dropCompanyForms tokens ⊆ tokens := by
  fun_induction dropCompanyForms tokens with
  | case1 tokens form h ih => exact List.Subset.trans ih (List.take_subset _ tokens)
  | case2 tokens h => exact List.Subset.refl _

/-- **A token is made of capitals, digits and blanks.** -/
theorem tokenText_normalize (raw : Str) : TokenText (normalizeDescription T raw) := by
  rw [normalizeDescription]
  split
  · nofun
  simp only
  split
  · exact tokenText_collapse _
  split
  · exact tokenText_collapse _
  refine TokenText.subset (tokenText_join fun token htoken => ?_) fun c hc => mem_of_mem_trim hc
  have hin := dropStopword_subset _ ((List.rdropWhile_prefix _ _).subset (dropCompanyForms_subset _ htoken))
  exact (tokenText_collapse _).subset (mem_of_mem_splitOnP (List.mem_of_mem_filter hin))

theorem tokenChar_plain {c : Char} (h : isTokenChar c = true ∨ c = ' ') : c.toNat < 128 ∧ c.toUpper = c := by
  rcases h with h | rfl
  · rw [isTokenChar, Bool.or_eq_true, Char.isUpper, Char.isDigit] at h
    simp only [Bool.and_eq_true, decide_eq_true_eq, ge_iff_le, UInt32.le_iff_toNat_le] at h
    have hlow : ¬ ('a'.val ≤ c.val ∧ c.val ≤ 'z'.val) := fun hl => by
      have ha : 97 ≤ c.toNat := hl.1
      have hc : c.toNat ≤ 90 := h.elim (fun h => h.2) fun h => Nat.le_trans h.2 (by decide)
      omega
    refine ⟨?_, by rw [Char.toUpper, dif_neg hlow]⟩
    exact h.elim (fun h => Nat.lt_of_le_of_lt h.2 (by decide)) fun h => Nat.lt_of_le_of_lt h.2 (by decide)
  · exact ⟨by decide, by decide⟩

/-- The fold leaves a token as it is. -/
theorem collationKey_tokenText {s : Str} (h : TokenText s) : collationKey T s = s := by
  have hascii : IsAscii s := fun c hc => (tokenChar_plain (h c hc)).1
  have hstrip : stripAccents T s = s := by
    rw [stripAccents, T.nfkd_ascii s hascii]
    exact List.filter_eq_self.mpr fun c hc => by rw [T.combining_ascii c (hascii c hc)]; rfl
  rw [collationKey, hstrip, T.upper_ascii s hascii]
  exact (List.map_congr_left fun c hc => (tokenChar_plain (h c hc)).2).trans (List.map_id' s)

theorem collationKey_normalize (raw : Str) : collationKey T (normalizeDescription T raw) = normalizeDescription T raw :=
  collationKey_tokenText (tokenText_normalize raw)

/-! ## A tier, for one token -/

section Tiers

variable (T)

/-- The category of the org's rule for a token. -/
def ruleOf (db : InferenceRows) (orgId : Nat) (token : Str) : Option Nat :=
  (db.rules.filter (fun r => r.orgId = orgId ∧ sameText T r.normalizedToken token)).head?.bind (·.categoryId)

/-- The slug the shared dictionary has for a token. -/
def slugOf (db : InferenceRows) (token : Str) : Option Str :=
  ((db.dictionary.filter (fun e => sameText T e.normalizedToken token)).head?.filter (·.categorySlug ≠ [])).map
    (·.categorySlug)

/-- The org's system category for a slug. -/
def categoryOf (db : InferenceRows) (orgId : Nat) (slug : Str) : Option Nat :=
  (db.categories.filter (fun c => c.orgId = orgId ∧ sameSlug T c.slug slug ∧ c.isSystem)).head?.map (·.id)

/-- What the tiers say about a token. -/
def inferredOf (db : InferenceRows) (orgId : Nat) (token : Str) : Inferred :=
  match ruleOf T db orgId token with
  | some categoryId => (some categoryId, .orgRule)
  | none =>
    match (slugOf T db token).bind (categoryOf T db orgId) with
    | some categoryId => (some categoryId, .sharedDictionary)
    | none => (none, .default)

end Tiers

section One

variable {α : Type} {p : α → Bool} {rows : List α}

/-- Of rows no two of which meet a test, one at most does. -/
theorem length_filter_le_one (h : rows.Pairwise (fun a b => ¬ (p a = true ∧ p b = true))) : (rows.filter p).length ≤ 1 := by
  induction rows with
  | nil => exact Nat.zero_le _
  | cons a rows ih =>
    obtain ⟨ha, hrows⟩ := List.pairwise_cons.mp h
    by_cases hp : p a = true
    · have hnone : rows.filter p = [] := List.filter_eq_nil_iff.mpr fun b hb hpb => ha b hb ⟨hp, hpb⟩
      rw [List.filter_cons_of_pos hp, hnone]
      exact Nat.le_refl _
    · rw [List.filter_cons_of_neg hp]
      exact ih hrows

theorem scalar_of_le_one (h : rows.length ≤ 1) : scalarOneOrNone rows = .ok rows.head? := by
  match rows, h with
  | [], _ => rfl
  | [a], _ => rfl
  | _ :: _ :: _, h => simp at h

theorem pick_of_le_one {text : α → Str} {token : Str} (h : rows.length ≤ 1) : pick text rows token = .ok rows.head? := by
  have hexact : (rows.filter (fun r => text r = token)) = [] ∨ rows.filter (fun r => text r = token) = rows := by
    match rows, h with
    | [], _ => exact .inl rfl
    | [a], _ =>
      by_cases ha : text a = token
      · exact .inr (List.filter_eq_self.mpr fun b hb => by simpa [List.mem_singleton.mp hb] using ha)
      · exact .inl (List.filter_eq_nil_iff.mpr fun b hb => by simpa [List.mem_singleton.mp hb] using ha)
    | _ :: _ :: _, h => simp at h
  rw [pick]
  rcases hexact with hnil | hall
  · rw [hnil, if_pos rfl, scalar_of_le_one h]
  · rw [hall, ite_self, scalar_of_le_one h]

end One

section Batch

variable (db : InferenceDb T) (orgId : Nat)

theorem sameText_iff {a b : Str} : sameText T a b = true ↔ collationKey T a = collationKey T b := decide_eq_true_iff

theorem sameSlug_iff {a : Option Str} {b : Str} :
    sameSlug T a b = true ↔ ∃ s, a = some s ∧ collationKey T s = collationKey T b := by
  cases a with
  | none => simp [sameSlug]
  | some s => simp [sameSlug, sameText_iff]

theorem one_rule_for (token : Str) :
    (db.rules.filter (fun r => r.orgId = orgId ∧ sameText T r.normalizedToken token)).length ≤ 1 := by
  refine length_filter_le_one (db.one_rule.imp fun {a b} hne hab => hne ?_)
  simp only [decide_eq_true_eq, sameText_iff] at hab ⊢
  exact ⟨hab.1.1.trans hab.2.1.symm, hab.1.2.trans hab.2.2.symm⟩

theorem one_entry_for (token : Str) : (db.dictionary.filter (fun e => sameText T e.normalizedToken token)).length ≤ 1 := by
  refine length_filter_le_one (db.one_entry.imp fun {a b} hne hab => hne ?_)
  simp only [sameText_iff] at hab ⊢
  exact hab.1.trans hab.2.symm

theorem one_category_for (slug : Str) :
    (db.categories.filter (fun c => c.orgId = orgId ∧ sameSlug T c.slug slug ∧ c.isSystem)).length ≤ 1 := by
  refine length_filter_le_one (db.one_category.imp fun {a b} hne hab => hne ?_)
  simp only [decide_eq_true_eq, sameSlug_iff] at hab ⊢
  obtain ⟨⟨ha, ⟨s, hs, hkey⟩, hsys⟩, hb, ⟨s', hs', hkey'⟩, hsys'⟩ := hab
  exact ⟨ha.trans hb.symm, hsys, hsys', s, hs, s', hs', hkey'.trans hkey.symm⟩

/-- The single call, tier by tier. -/
theorem inferCategory_eq (description : Str) :
    inferCategory T db.toInferenceRows orgId description =
      .ok (if normalizeDescription T description = [] then (none, .default)
        else inferredOf T db.toInferenceRows orgId (normalizeDescription T description)) := by
  rw [inferCategory]
  by_cases htoken : normalizeDescription T description = []
  · simp only [htoken, if_true]
    rfl
  simp only [htoken, if_false]
  rw [scalar_of_le_one (one_rule_for db orgId _), scalar_of_le_one (one_entry_for db _)]
  simp only [bind_ok]
  split
  · next categoryId hrule =>
    have hrule : ruleOf T db.toInferenceRows orgId (normalizeDescription T description) = some categoryId := hrule
    rw [inferredOf, hrule]
    rfl
  · next hrule =>
    have hrule : ruleOf T db.toInferenceRows orgId (normalizeDescription T description) = none := hrule
    rw [inferredOf, hrule]
    split
    · next entry hentry =>
      have hslug : slugOf T db.toInferenceRows (normalizeDescription T description) = some entry.categorySlug :=
        congrArg (Option.map DictionaryRow.categorySlug) hentry
      rw [scalar_of_le_one (one_category_for db orgId _), hslug, Option.bind_some]
      simp only [bind_ok]
      split
      · next category hcategory =>
        have hid : categoryOf T db.toInferenceRows orgId entry.categorySlug = some category.id :=
          congrArg (Option.map SlugRow.id) hcategory
        rw [hid]
        rfl
      · next hcategory =>
        have hid : categoryOf T db.toInferenceRows orgId entry.categorySlug = none :=
          congrArg (Option.map SlugRow.id) hcategory
        rw [hid]
        rfl
    · next hentry =>
      have hslug : slugOf T db.toInferenceRows (normalizeDescription T description) = none :=
        congrArg (Option.map DictionaryRow.categorySlug) hentry
      rw [hslug]
      rfl

/-! ## A tier, for all tokens -/

theorem reduceOption_map {α β : Type} (f : α → Option β) (xs : List α) : (xs.map f).reduceOption = xs.filterMap f := by
  rw [List.reduceOption, List.filterMap_map, Function.id_comp]

/-- What a batch finds under a token's key is what the query for the token finds. -/
theorem rowsByKey_eq {α : Type} {text : α → Str} {rows : List α} {p q : α → Bool} {key : Str}
    (h : ∀ r ∈ rows, (p r = true ∧ collationKey T (text r) = key) ↔ q r = true) :
    rowsByKey T text (rows.filter p) key = rows.filter q := by
  rw [rowsByKey, List.filter_filter]
  refine List.filter_congr fun r hr => ?_
  rw [Bool.eq_iff_iff, ← h r hr, Bool.and_eq_true, decide_eq_true_iff]
  exact and_comm

variable {wanted : List Str} (hwanted : ∀ t ∈ wanted, collationKey T t = t)

include hwanted

theorem resolveRules_eq : resolveRules T db.toInferenceRows orgId wanted =
    .ok (wanted.filterMap fun t => (ruleOf T db.toInferenceRows orgId t).map (t, ·)) := by
  have hstep : ∀ t ∈ wanted, (do
      let rule ← pick (·.normalizedToken) (rowsByKey T (·.normalizedToken) (db.rules.filter
        (fun r => r.orgId = orgId ∧ wanted.any (sameText T r.normalizedToken))) t) t
      return (rule.bind (·.categoryId)).map (t, ·)) =
        (.ok ((ruleOf T db.toInferenceRows orgId t).map (t, ·)) : Except MultipleResults (Option (Str × Nat))) := by
    intro t ht
    have hrows : rowsByKey T (·.normalizedToken) (db.rules.filter
        (fun r => r.orgId = orgId ∧ wanted.any (sameText T r.normalizedToken))) t =
        db.rules.filter (fun r => r.orgId = orgId ∧ sameText T r.normalizedToken t) := by
      refine rowsByKey_eq fun r _ => ?_
      simp only [decide_eq_true_eq, List.any_eq_true, sameText_iff, hwanted t ht]
      exact ⟨fun h => ⟨h.1.1, h.2⟩, fun h => ⟨⟨h.1, t, ht, h.2.trans (hwanted t ht).symm⟩, h.2⟩⟩
    rw [hrows, pick_of_le_one (one_rule_for db orgId t)]
    rfl
  rw [resolveRules, mapM_eq_ok_of_forall hstep]
  exact congrArg Except.ok (reduceOption_map _ _)

theorem resolveSlugs_eq : resolveSlugs T db.toInferenceRows wanted =
    .ok (wanted.filterMap fun t => (slugOf T db.toInferenceRows t).map (t, ·)) := by
  have hstep : ∀ t ∈ wanted, (do
      let entry ← pick (·.normalizedToken) (rowsByKey T (·.normalizedToken) (db.dictionary.filter
        (fun e => wanted.any (sameText T e.normalizedToken))) t) t
      return (entry.filter (·.categorySlug ≠ [])).map fun e => (t, e.categorySlug)) =
        (.ok ((slugOf T db.toInferenceRows t).map (t, ·)) : Except MultipleResults (Option (Str × Str))) := by
    intro t ht
    have hrows : rowsByKey T (·.normalizedToken) (db.dictionary.filter
        (fun e => wanted.any (sameText T e.normalizedToken))) t =
        db.dictionary.filter (fun e => sameText T e.normalizedToken t) := by
      refine rowsByKey_eq fun e _ => ?_
      simp only [List.any_eq_true, sameText_iff, hwanted t ht]
      exact ⟨fun h => h.2, fun h => ⟨⟨t, ht, h.trans (hwanted t ht).symm⟩, h⟩⟩
    rw [hrows, pick_of_le_one (one_entry_for db t), slugOf, Option.map_map]
    rfl
  rw [resolveSlugs, mapM_eq_ok_of_forall hstep]
  exact congrArg Except.ok (reduceOption_map _ _)

omit hwanted in
theorem resolveCategories_eq (slugs : List (Str × Str)) : resolveCategories T db.toInferenceRows orgId slugs =
    .ok (slugs.filterMap fun p => (categoryOf T db.toInferenceRows orgId p.2).map (p.1, ·)) := by
  have hstep : ∀ p ∈ slugs, (do
      let category ← pick (fun c => c.slug.getD []) (rowsByKey T (fun c => c.slug.getD []) (db.categories.filter (fun c =>
        c.orgId = orgId ∧ slugs.any (fun p => sameSlug T c.slug p.2) ∧ c.isSystem)) (collationKey T p.2)) p.2
      return category.map fun c => (p.1, c.id)) =
        (.ok ((categoryOf T db.toInferenceRows orgId p.2).map (p.1, ·)) : Except MultipleResults (Option (Str × Nat))) := by
    intro p hp
    have hrows : rowsByKey T (fun c => c.slug.getD []) (db.categories.filter (fun c =>
        c.orgId = orgId ∧ slugs.any (fun p => sameSlug T c.slug p.2) ∧ c.isSystem)) (collationKey T p.2) =
        db.categories.filter (fun c => c.orgId = orgId ∧ sameSlug T c.slug p.2 ∧ c.isSystem) := by
      refine rowsByKey_eq fun c _ => ?_
      simp only [decide_eq_true_eq, List.any_eq_true, sameSlug_iff]
      constructor
      · rintro ⟨⟨horg, ⟨q, -, s, hs, -⟩, hsys⟩, hkey⟩
        rw [hs] at hkey
        exact ⟨horg, ⟨s, hs, hkey⟩, hsys⟩
      · rintro ⟨horg, ⟨s, hs, hkey⟩, hsys⟩
        rw [hs]
        exact ⟨⟨horg, ⟨p, hp, s, rfl, hkey⟩, hsys⟩, hkey⟩
    rw [hrows, pick_of_le_one (one_category_for db orgId p.2), categoryOf, Option.map_map]
    rfl
  rw [resolveCategories, mapM_eq_ok_of_forall hstep]
  exact congrArg Except.ok (reduceOption_map _ _)

end Batch

/-! ## All descriptions -/

section All

variable (db : InferenceDb T) (orgId : Nat)

/-- What the batch has resolved says of each wanted token what the tiers say. -/
theorem lookup_resolved {wanted : List Str} {token : Str} (ht : token ∈ wanted) :
    let ruled := wanted.filterMap fun t => (ruleOf T db.toInferenceRows orgId t).map (t, ·)
    let slugs := (wanted.filter (· ∉ ruled.map Prod.fst)).filterMap fun t => (slugOf T db.toInferenceRows t).map (t, ·)
    let named := slugs.filterMap fun p => (categoryOf T db.toInferenceRows orgId p.2).map (p.1, ·)
    ((ruled.map (fun p => (p.1, some p.2, InferSource.orgRule)) ++
      named.map (fun p => (p.1, some p.2, InferSource.sharedDictionary))).lookup token).getD (none, .default) =
        inferredOf T db.toInferenceRows orgId token := by
  intro ruled slugs named
  have hruled : ruled.lookup token = ruleOf T db.toInferenceRows orgId token :=
    (lookup_filterMap _ wanted).trans (if_pos ht)
  have hnamed : named = (wanted.filter (· ∉ ruled.map Prod.fst)).filterMap fun t =>
      ((slugOf T db.toInferenceRows t).bind (categoryOf T db.toInferenceRows orgId)).map (t, ·) := by
    refine (List.filterMap_filterMap).trans (List.filterMap_congr fun t _ => ?_)
    rcases slugOf T db.toInferenceRows t <;> rfl
  have hfirst : (ruled.map (fun p => (p.1, some p.2, InferSource.orgRule))).lookup token =
      (ruled.lookup token).map (fun c => (some c, InferSource.orgRule)) :=
    lookup_map_snd fun c : Nat => (some c, InferSource.orgRule)
  have hsecond : (named.map (fun p => (p.1, some p.2, InferSource.sharedDictionary))).lookup token =
      (named.lookup token).map (fun c => (some c, InferSource.sharedDictionary)) :=
    lookup_map_snd fun c : Nat => (some c, InferSource.sharedDictionary)
  rw [List.lookup_append, hfirst, hsecond, hruled, hnamed, lookup_filterMap, inferredOf]
  rcases hrule : ruleOf T db.toInferenceRows orgId token with _ | categoryId
  · have hopen : token ∈ wanted.filter (· ∉ ruled.map Prod.fst) := by
      refine List.mem_filter.mpr ⟨ht, ?_⟩
      have hnone : ∀ c, (token, c) ∉ ruled := fun c hc => by
        obtain ⟨c', hc'⟩ := exists_lookup_of_mem hc
        rw [hruled, hrule] at hc'
        cases hc'
      simpa using hnone
    rw [if_pos hopen]
    rcases (slugOf T db.toInferenceRows token).bind (categoryOf T db.toInferenceRows orgId) <;> rfl
  · rfl

theorem inferCategories_eq (descriptions : List Str) :
    inferCategories T db.toInferenceRows orgId descriptions = .ok (descriptions.dedup.map fun d =>
      (d, if normalizeDescription T d = [] then (none, .default)
        else inferredOf T db.toInferenceRows orgId (normalizeDescription T d))) := by
  have hfold : ∀ t ∈ (((descriptions.dedup.map fun d => (d, normalizeDescription T d)).map Prod.snd).filter
      (· ≠ [])).dedup, collationKey T t = t := by
    intro t ht
    obtain ⟨p, hp, rfl⟩ := List.mem_map.mp (List.mem_of_mem_filter (List.mem_dedup.mp ht))
    obtain ⟨d, -, rfl⟩ := List.mem_map.mp hp
    exact collationKey_normalize d
  rw [inferCategories, resolveRules_eq db orgId hfold]
  simp only [bind_ok]
  rw [resolveSlugs_eq db fun t ht => hfold t (List.mem_of_mem_filter ht), bind_ok, resolveCategories_eq, bind_ok]
  refine congrArg Except.ok ?_
  rw [List.map_map]
  refine List.map_congr_left fun d hd => ?_
  rw [Function.comp_apply]
  by_cases htoken : normalizeDescription T d = []
  · simp only [htoken, if_true]
  · have hin : normalizeDescription T d ∈ (((descriptions.dedup.map fun d => (d, normalizeDescription T d)).map
        Prod.snd).filter (· ≠ [])).dedup := by
      refine List.mem_dedup.mpr (List.mem_filter.mpr ⟨?_, by simpa using htoken⟩)
      exact List.mem_map.mpr ⟨_, List.mem_map.mpr ⟨d, hd, rfl⟩, rfl⟩
    simp only [htoken, if_false]
    exact congrArg (Prod.mk d) (lookup_resolved db orgId hin)

end All

/-- **Inferred together or alone, a description gets the same category, whatever else is
inferred with it.** -/
theorem inferCategories_each (T : TextTables) (db : InferenceDb T) (orgId : Nat) (descriptions : List Str) :
    ∃ answers, inferCategories T db.toInferenceRows orgId descriptions = .ok answers ∧
      answers.map Prod.fst = descriptions.dedup ∧
      ∀ d ∈ descriptions, ∃ answer, inferCategory T db.toInferenceRows orgId d = .ok answer ∧
        answers.lookup d = some answer ∧
        ∀ others, descriptions ⊆ others → ∃ more, inferCategories T db.toInferenceRows orgId others = .ok more ∧
          more.lookup d = some answer := by
  have hlookup : ∀ (ds : List Str) (d : Str), d ∈ ds → (ds.dedup.map fun d =>
      (d, if normalizeDescription T d = [] then ((none, .default) : Inferred)
        else inferredOf T db.toInferenceRows orgId (normalizeDescription T d))).lookup d =
      some (if normalizeDescription T d = [] then (none, .default)
        else inferredOf T db.toInferenceRows orgId (normalizeDescription T d)) := by
    intro ds d hd
    refine lookup_eq_some_of_mem ?_ (List.mem_map.mpr ⟨d, List.mem_dedup.mpr hd, rfl⟩)
    rw [List.map_map]
    exact (List.map_id ds.dedup).symm ▸ List.nodup_dedup ds
  refine ⟨_, inferCategories_eq db orgId descriptions, ?_, fun d hd => ?_⟩
  · rw [List.map_map]
    exact List.map_id _
  · exact ⟨_, inferCategory_eq db orgId d, hlookup descriptions d hd, fun others hsub =>
      ⟨_, inferCategories_eq db orgId others, hlookup others d (hsub hd)⟩⟩

end BetterDecision
