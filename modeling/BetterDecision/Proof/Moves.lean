import BetterDecision.Proof.Books

/-!
# What the moves keep

`move_orderly`: links stay links to another row of the org, and every pair stays one
that `linkPair` made. `move_weight`: a move adds its label to the totals, which is
what makes a label mean anything. Both are one case per move; what each case needs
is how the move changes `linkOf`.
-/

namespace BetterDecision

variable {rules : Rules} {b b' : Books} {ε : Effect}

/-! ## How a move changes the links -/

theorem linkOf_modify_withLink {rows : Table Transaction} {k : Nat} {a : Transaction} (v : Option Nat)
    (h : rows.get? k = some a) (i : Nat) :
    linkOf (rows.modify k (withLink v)) i = if i = k then v else linkOf rows i := by
  rw [linkOf, Table.get?_modify]
  by_cases hi : i = k
  · subst hi
    rw [if_pos rfl, if_pos rfl, h]
    rfl
  · rw [if_neg hi, if_neg hi]
    rfl

theorem linkOf_insert {rows : Table Transaction} (hl : WellLinked rows) (tx : Transaction) {i l : Nat}
    {a : Transaction} (ha : rows.get? i = some a) (hal : a.linkedTransactionId = some l) :
    linkOf (rows.insert tx) l = linkOf rows l := by
  obtain ⟨-, c, hc, -⟩ := hl i a l ha hal
  rw [linkOf_of_get hc, linkOf_of_get (Table.get?_insert_of_some hc)]

theorem linkOf_erase (rows : Table Transaction) (ids : List Nat) (i : Nat) :
    linkOf ((rows.remove (ids.contains ·)).mapRows (fun _ t => withoutLinkTo ids t)) i =
      if ids.contains i then none else (linkOf rows i).filter (fun l => !ids.contains l) := by
  rw [linkOf, Table.get?_mapRows, Table.get?_remove, linkOf]
  by_cases hi : ids.contains i
  · rw [if_pos hi, if_pos hi]
    rfl
  · rw [if_neg hi, if_neg hi]
    rcases rows.get? i with _ | a
    · rfl
    · rw [Option.map_some, Option.bind_some, Option.bind_some]
      rcases hl : a.linkedTransactionId with _ | l
      · simp [withoutLinkTo, hl]
      · have hkept : (withoutLinkTo ids a).linkedTransactionId =
            if ids.contains l then none else some l := by
          rw [withoutLinkTo, hl, Option.any_some]
          split
          · rfl
          · exact hl
        rw [hkept]
        by_cases hmem : ids.contains l
        · rw [if_pos hmem, Option.filter_some, hmem]
          rfl
        · rw [if_neg hmem, Option.filter_some, if_pos (by simpa using hmem)]

/-- Two links set, one after the other. -/
theorem linkOf_modify_two {rows : Table Transaction} {e i : Nat} {exp inc : Transaction} (v w : Option Nat)
    (hexp : rows.get? e = some exp) (hinc : rows.get? i = some inc) (ne : e ≠ i) (k : Nat) :
    linkOf ((rows.modify e (withLink v)).modify i (withLink w)) k =
      if k = i then w else if k = e then v else linkOf rows k := by
  have hinc' : (rows.modify e (withLink v)).get? i = some inc := by
    rw [Table.get?_modify_of_ne ne.symm, hinc]
  rw [linkOf_modify_withLink w hinc', linkOf_modify_withLink v hexp]

theorem get?_modify_two {rows : Table Transaction} {e i : Nat} (f g : Transaction → Transaction)
    (ne : e ≠ i) (k : Nat) :
    ((rows.modify e f).modify i g).get? k =
      if k = i then (rows.get? k).map g else if k = e then (rows.get? k).map f else rows.get? k := by
  rw [Table.get?_modify, Table.get?_modify]
  by_cases hk : k = i
  · rw [if_pos hk, if_pos hk, if_neg (by omega)]
  · rw [if_neg hk, if_neg hk]

/-! ## Links stay in order -/

theorem wellLinked_insert {rows : Table Transaction} (hl : WellLinked rows) {tx : Transaction}
    (h : tx.linkedTransactionId = none) : WellLinked (rows.insert tx) := by
  intro i a l ha hal
  rw [Table.get?_insert] at ha
  split at ha
  · obtain rfl := Option.some.inj ha
    rw [h] at hal
    cases hal
  · obtain ⟨hne, c, hc, horg⟩ := hl i a l ha hal
    exact ⟨hne, c, Table.get?_insert_of_some hc, horg⟩

theorem wellLinked_mapRows {rows : Table Transaction} (hl : WellLinked rows)
    {g : Nat → Transaction → Transaction}
    (keeps : ∀ i a, rows.get? i = some a →
      (g i a).linkedTransactionId = a.linkedTransactionId ∧ (g i a).orgId = a.orgId) :
    WellLinked (rows.mapRows g) := by
  intro i a l ha hal
  rw [Table.get?_mapRows, Option.map_eq_some_iff] at ha
  obtain ⟨a, ha, rfl⟩ := ha
  rw [(keeps i a ha).1] at hal
  obtain ⟨hne, c, hc, horg⟩ := hl i a l ha hal
  refine ⟨hne, g l c, by rw [Table.get?_mapRows, hc, Option.map_some], ?_⟩
  rw [(keeps l c hc).2, (keeps i a ha).2, horg]

/-- A link set to another row of the org, or cleared. -/
theorem wellLinked_withLink {rows : Table Transaction} (hl : WellLinked rows) {k : Nat} {tx : Transaction}
    (htx : rows.get? k = some tx) {v : Option Nat}
    (hv : ∀ l ∈ v, l ≠ k ∧ ∃ c, rows.get? l = some c ∧ c.orgId = tx.orgId) :
    WellLinked (rows.modify k (withLink v)) := by
  have hget : ∀ l c, rows.get? l = some c →
      ∃ c', (rows.modify k (withLink v)).get? l = some c' ∧ c'.orgId = c.orgId := by
    intro l c hc
    refine ⟨if l = k then withLink v c else c, Table.get?_modify_eq_some.mpr ⟨c, hc, rfl⟩, ?_⟩
    split <;> rfl
  intro i a l ha hal
  obtain ⟨a₀, ha₀, rfl⟩ := Table.get?_modify_eq_some.mp ha
  by_cases hi : i = k
  · subst hi
    rw [if_pos rfl] at hal ⊢
    obtain rfl : tx = a₀ := by rw [htx] at ha₀; exact Option.some.inj ha₀
    obtain ⟨hne, c, hc, horg⟩ := hv l hal
    obtain ⟨c', hc', horg'⟩ := hget l c hc
    exact ⟨hne, c', hc', horg'.trans horg⟩
  · rw [if_neg hi] at hal ⊢
    obtain ⟨hne, c, hc, horg⟩ := hl i a₀ l ha₀ hal
    obtain ⟨c', hc', horg'⟩ := hget l c hc
    exact ⟨hne, c', hc', horg'.trans horg⟩

theorem wellLinked_erase {rows : Table Transaction} (hl : WellLinked rows) (ids : List Nat) :
    WellLinked ((rows.remove (ids.contains ·)).mapRows (fun _ t => withoutLinkTo ids t)) := by
  intro i a l ha hal
  rw [← linkOf_of_get ha, linkOf_erase] at hal
  by_cases hi : ids.contains i
  · rw [if_pos hi] at hal
    cases hal
  · rw [if_neg hi] at hal
    obtain ⟨hal, hkeep⟩ := Option.filter_eq_some_iff.mp hal
    obtain ⟨a₀, ha₀, hlink⟩ := linkOf_eq_some.mp hal
    obtain ⟨hne, c, hc, horg⟩ := hl i a₀ l ha₀ hlink
    have hl' : ids.contains l = false := by simpa using hkeep
    have hi' : ids.contains i = false := by simpa using hi
    have hgetl : ((rows.remove (ids.contains ·)).mapRows (fun _ t => withoutLinkTo ids t)).get? l =
        some (withoutLinkTo ids c) := by
      rw [Table.get?_mapRows, Table.get?_remove, if_neg (by simpa using hl'), hc, Option.map_some]
    have hgeti : some a = some (withoutLinkTo ids a₀) := by
      rw [← ha, Table.get?_mapRows, Table.get?_remove, if_neg (by simpa using hi'), ha₀, Option.map_some]
    have horgs : ∀ t : Transaction, (withoutLinkTo ids t).orgId = t.orgId := by
      intro t
      unfold withoutLinkTo
      split <;> rfl
    refine ⟨hne, _, hgetl, ?_⟩
    rw [Option.some.inj hgeti, horgs, horgs, horg]

/-- **Every move keeps the links leading to other rows of the org.** -/
theorem move_wellLinked (hm : Move rules b ε b') (hl : WellLinked b.rows) : WellLinked b'.rows := by
  cases hm with
  | post tx unlinked => exact wellLinked_insert hl unlinked
  | rewrite g keeps fits => exact wellLinked_mapRows hl keeps
  | @pair e i exp inc hexp hinc ne uexp uinc legs =>
    have hinc' : (b.rows.modify e (withLink (some i))).get? i = some inc := by
      rw [Table.get?_modify_of_ne ne.symm, hinc]
    have hexp' : (b.rows.modify e (withLink (some i))).get? e = some (withLink (some i) exp) :=
      Table.get?_modify_self hexp
    refine wellLinked_withLink (wellLinked_withLink hl hexp ?_) hinc' ?_
    · intro l hl'
      obtain rfl := Option.some.inj hl'
      exact ⟨ne.symm, inc, hinc, legs.org.symm⟩
    · intro l hl'
      obtain rfl := Option.some.inj hl'
      exact ⟨ne, _, hexp', legs.org⟩
  | @unpair e i exp inc legs =>
    have hne := (hl e exp i legs.left legs.there).1
    have hinc' : (b.rows.modify e (withLink none)).get? i = some inc := by
      rw [Table.get?_modify_of_ne hne, legs.right]
    exact wellLinked_withLink (wellLinked_withLink hl legs.left (by simp)) hinc' (by simp)
  | @mark i k tx target htx htarget ne org away single =>
    refine wellLinked_withLink hl htx ?_
    intro l hl'
    obtain rfl := Option.some.inj hl'
    exact ⟨ne, target, htarget, org⟩
  | erase ids orphans => exact wellLinked_erase hl ids
  | hire r fresh => exact hl
  | amend id f keeps ahead => exact hl
  | spend hr left forward => exact hl
  | retire doomed => exact hl
  | redate allowed id f => exact hl

/-! ## Pairs stay pairs -/

theorem legs_withLink {v w : Option Nat} {exp inc : Transaction} (h : Legs rules exp inc) :
    Legs rules (withLink v exp) (withLink w inc) :=
  ⟨h.org, h.expense, h.income, h.amount, h.accounts, h.currency⟩

/-- Two rows point at each other, said on links alone. -/
theorem mutual_iff {rows : Table Transaction} {i j : Nat} {a c : Transaction} (ha : rows.get? i = some a)
    (hc : rows.get? j = some c) :
    Mutual rows i a j c ↔ linkOf rows i = some j ∧ linkOf rows j = some i := by
  rw [linkOf_of_get ha, linkOf_of_get hc]
  exact ⟨fun h => ⟨h.there, h.back⟩, fun h => ⟨ha, hc, h.1, h.2⟩⟩

/-- A pair after a move that was one before, its rows told apart from those before by
nothing `Legs` reads. -/
theorem paired_of_mutual (hp : Paired rules b) {i j : Nat} {a c a₀ c₀ : Transaction}
    (h : Mutual b.rows i a₀ j c₀) (hij : (i, j) ∈ b.pairings → (i, j) ∈ b'.pairings)
    (hji : (j, i) ∈ b.pairings → (j, i) ∈ b'.pairings)
    (hfit : Legs rules a₀ c₀ → Legs rules a c) (hfit' : Legs rules c₀ a₀ → Legs rules c a) :
    (Legs rules a c ∧ (i, j) ∈ b'.pairings) ∨ (Legs rules c a ∧ (j, i) ∈ b'.pairings) := by
  rcases hp i a₀ j c₀ h with ⟨hf, hmem⟩ | ⟨hf, hmem⟩
  · exact .inl ⟨hfit hf, hij hmem⟩
  · exact .inr ⟨hfit' hf, hji hmem⟩

/-- **Every move keeps the pairs `linkPair` made, and makes no other.** -/
theorem move_paired (hm : Move rules b ε b') (ho : Orderly rules b) : Paired rules b' := by
  obtain ⟨hl, hp⟩ := ho
  cases hm with
  | post tx unlinked =>
    intro i a j c h
    obtain ⟨ha, hc, hij, hji⟩ := h
    rw [Table.get?_insert] at ha hc
    split at ha
    · obtain rfl := Option.some.inj ha
      rw [unlinked] at hij
      cases hij
    · split at hc
      · obtain rfl := Option.some.inj hc
        rw [unlinked] at hji
        cases hji
      · exact paired_of_mutual hp ⟨ha, hc, hij, hji⟩ id id id id
  | rewrite g keeps fits =>
    intro i a j c h
    obtain ⟨ha, hc, hij, hji⟩ := h
    rw [Table.get?_mapRows, Option.map_eq_some_iff] at ha hc
    obtain ⟨a, ha, rfl⟩ := ha
    obtain ⟨c, hc, rfl⟩ := hc
    rw [(keeps i a ha).1] at hij
    rw [(keeps j c hc).1] at hji
    have h : Mutual b.rows i a j c := ⟨ha, hc, hij, hji⟩
    exact paired_of_mutual hp h id id (fits i a j c h) (fits j c i a h.symm)
  | @pair e i exp inc hexp hinc ne uexp uinc legs =>
    intro x a y c h
    have hx := linkOf_of_get h.left
    have hy := linkOf_of_get h.right
    rw [linkOf_modify_two _ _ hexp hinc ne, h.there] at hx
    rw [linkOf_modify_two _ _ hexp hinc ne, h.back] at hy
    have hga := h.left
    have hgc := h.right
    rw [get?_modify_two _ _ ne] at hga hgc
    have hlast : (e, i) ∈ b.pairings ++ [(e, i)] := List.mem_append_right _ (List.mem_singleton_self _)
    by_cases hxi : x = i
    · -- the income leg, whose partner is the expense leg
      subst hxi
      rw [if_pos rfl] at hx hga
      obtain rfl : e = y := Option.some.inj hx
      rw [if_neg ne, if_pos rfl] at hgc
      rw [hinc] at hga
      rw [hexp] at hgc
      obtain rfl := Option.some.inj hga
      obtain rfl := Option.some.inj hgc
      exact .inr ⟨legs_withLink legs, hlast⟩
    · rw [if_neg hxi] at hx hga
      by_cases hxe : x = e
      · subst hxe
        rw [if_pos rfl] at hx hga
        obtain rfl : i = y := Option.some.inj hx
        rw [if_pos rfl] at hgc
        rw [hexp] at hga
        rw [hinc] at hgc
        obtain rfl := Option.some.inj hga
        obtain rfl := Option.some.inj hgc
        exact .inl ⟨legs_withLink legs, hlast⟩
      · -- a pair that was there: neither of the two rows linked now was linked then
        rw [if_neg hxe] at hx hga
        have hyi : y ≠ i := by
          intro hyi
          rw [if_pos hyi] at hy
          exact hxe (Option.some.inj hy).symm
        rw [if_neg hyi] at hy hgc
        have hye : y ≠ e := by
          intro hye
          rw [if_pos hye] at hy
          exact hxi (Option.some.inj hy).symm
        rw [if_neg hye] at hgc
        exact paired_of_mutual hp ⟨hga, hgc, h.there, h.back⟩ (List.mem_append_left _)
          (List.mem_append_left _) id id
  | @unpair e i exp inc legs =>
    have ne := (hl e exp i legs.left legs.there).1.symm
    intro x a y c h
    have hx := linkOf_of_get h.left
    have hy := linkOf_of_get h.right
    rw [linkOf_modify_two _ _ legs.left legs.right ne, h.there] at hx
    rw [linkOf_modify_two _ _ legs.left legs.right ne, h.back] at hy
    have hga := h.left
    have hgc := h.right
    rw [get?_modify_two _ _ ne] at hga hgc
    have hstill : ∀ z w v, (if z = i then none else if z = e then none else linkOf b.rows z) = some w →
        v = z → v ≠ i ∧ v ≠ e := by
      intro z w v hz hv
      subst hv
      split at hz
      · cases hz
      · split at hz
        · cases hz
        · exact ⟨‹_›, ‹_›⟩
    obtain ⟨hxi, hxe⟩ := hstill x y x hx rfl
    obtain ⟨hyi, hye⟩ := hstill y x y hy rfl
    rw [if_neg hxi, if_neg hxe] at hga
    rw [if_neg hyi, if_neg hye] at hgc
    refine paired_of_mutual hp ⟨hga, hgc, h.there, h.back⟩ ?_ ?_ id id
    · intro hmem
      exact List.mem_filter.mpr ⟨hmem, by simp [hxe]⟩
    · intro hmem
      exact List.mem_filter.mpr ⟨hmem, by simp [hye]⟩
  | @mark i k tx target htx htarget ne org away single =>
    intro x a y c h
    have hx := linkOf_of_get h.left
    have hy := linkOf_of_get h.right
    rw [linkOf_modify_withLink _ htx, h.there] at hx
    rw [linkOf_modify_withLink _ htx, h.back] at hy
    have haway : linkOf b.rows k ≠ some i := by rw [linkOf_of_get htarget]; exact away
    have hxi : x ≠ i := by
      intro hxi
      rw [if_pos hxi] at hx
      obtain rfl : k = y := Option.some.inj hx
      rw [if_neg ne, hxi] at hy
      exact haway hy
    have hyi : y ≠ i := by
      intro hyi
      rw [if_pos hyi] at hy
      obtain rfl : k = x := Option.some.inj hy
      rw [if_neg ne, hyi] at hx
      exact haway hx
    have hga := h.left
    have hgc := h.right
    rw [Table.get?_modify_of_ne hxi] at hga
    rw [Table.get?_modify_of_ne hyi] at hgc
    exact paired_of_mutual hp ⟨hga, hgc, h.there, h.back⟩ id id id id
  | erase ids orphans =>
    intro x a y c h
    have hwas : ∀ z d w, ((b.rows.remove (ids.contains ·)).mapRows (fun _ t => withoutLinkTo ids t)).get? z
        = some d → d.linkedTransactionId = some w → b.rows.get? z = some d := by
      intro z d w hd hdw
      rw [Table.get?_mapRows, Table.get?_remove] at hd
      split at hd
      · cases hd
      · obtain ⟨d₀, hd₀, rfl⟩ := Option.map_eq_some_iff.mp hd
        unfold withoutLinkTo at hdw ⊢
        split
        · rw [if_pos ‹_›] at hdw
          cases hdw
        · exact hd₀
    exact paired_of_mutual hp ⟨hwas x a y h.left h.there, hwas y c x h.right h.back, h.there, h.back⟩
      id id id id
  | hire r fresh => exact hp
  | amend id f keeps ahead => exact hp
  | spend hr left forward => exact hp
  | retire doomed => exact hp
  | redate allowed id f => exact hp

/-- **Every move keeps the links in order.** -/
theorem move_orderly (hm : Move rules b ε b') (ho : Orderly rules b) : Orderly rules b' :=
  ⟨move_wellLinked hm ho.linked, move_paired hm ho⟩

/-! ## What a move adds -/

theorem weight_insert {rows : Table Transaction} (hl : WellLinked rows) {tx : Transaction}
    (h : tx.linkedTransactionId = none) :
    weight (rows.insert tx) = weight rows + weigh rows (rows.next, tx) := by
  rw [weight, Table.total_insert, weight]
  congr 1
  · refine Table.total_congr fun i a ha => ?_
    refine weigh_congr fun l hal => ?_
    rw [linkOf_insert hl tx ha hal]
  · refine weigh_congr fun l hal => ?_
    rw [h] at hal
    cases hal

/-- Rows rewritten under their links move the totals by what each row moves. -/
theorem weight_mapRows {rows : Table Transaction} {g : Nat → Transaction → Transaction}
    (hg : ∀ i a, rows.get? i = some a → (g i a).linkedTransactionId = a.linkedTransactionId) :
    weight (rows.mapRows g) = weight rows + shift rows g := by
  have hsame : weight (rows.mapRows g) = rows.total (fun i a => weigh rows (i, g i a)) := by
    rw [weight, Table.total_mapRows]
    refine Table.total_congr fun i a ha => ?_
    refine weigh_congr fun l hl => ?_
    rw [linkOf_mapRows hg]
  rw [hsame, shift, Table.total_sub, weight, add_sub_cancel]

/-- Links set on some rows: the totals change by what the new links put in or take out. -/
theorem weight_relink {rows rows' : Table Transaction} {g : Nat → Transaction → Transaction}
    (hrows : rows' = rows.mapRows g) {δ : Nat → Transaction → Effect}
    (h : ∀ i a, rows.get? i = some a → weigh rows' (i, g i a) = weigh rows (i, a) + δ i a) :
    weight rows' = weight rows + rows.total δ := by
  have : weight rows' = rows.total (fun i a => weigh rows' (i, g i a)) := by
    rw [weight, hrows, Table.total_mapRows]
  rw [this, weight, ← Table.total_add]
  exact Table.total_congr h

theorem modify_two_eq_mapRows (rows : Table Transaction) (e i : Nat) (f g : Transaction → Transaction) :
    (rows.modify e f).modify i g = rows.mapRows (fun k a =>
      let a := if k = e then f a else a
      if k = i then g a else a) := by
  refine Table.ext ?_ rfl
  simp [Table.modify, Table.mapRows, Function.comp_def]

/-- A link that is not looked at says nothing about a row's weight. -/
theorem weigh_withLink {rows rows' : Table Transaction} {i : Nat} {a : Transaction} {v : Option Nat}
    (h : balanceContributionFilter rows' (i, withLink v a) = balanceContributionFilter rows (i, a)) :
    weigh rows' (i, withLink v a) = weigh rows (i, a) := by
  unfold weigh booked
  rw [h]
  rfl

theorem balanceContributionFilter_withLink {rows : Table Transaction} {i : Nat} {a : Transaction}
    {v : Option Nat} (h : ∀ l ∈ v, linkOf rows l = some i) :
    balanceContributionFilter rows (i, withLink v a) = !a.reconciliationState.isReverted := by
  unfold balanceContributionFilter withLink
  rcases v with _ | l
  · simp
  · simp [h l rfl]

/-- A row unlinked, or linked back to, is counted unless it is reverted. -/
theorem balanceContributionFilter_of_back {rows : Table Transaction} {i : Nat} {a : Transaction}
    (h : ∀ l, a.linkedTransactionId = some l → linkOf rows l = some i) :
    balanceContributionFilter rows (i, a) = !a.reconciliationState.isReverted :=
  balanceContributionFilter_withLink (v := a.linkedTransactionId) h

theorem weight_pair {rows : Table Transaction} {e i : Nat} {exp inc : Transaction}
    (hexp : rows.get? e = some exp) (hinc : rows.get? i = some inc) (ne : e ≠ i)
    (uexp : exp.linkedTransactionId = none) (uinc : inc.linkedTransactionId = none) :
    weight ((rows.modify e (withLink (some i))).modify i (withLink (some e))) = weight rows := by
  have hlink := linkOf_modify_two (some i) (some e) hexp hinc ne
  refine (weight_relink (δ := fun _ _ => 0) (modify_two_eq_mapRows _ _ _ _ _) ?_).trans ?_
  · intro k a ha
    dsimp only
    rw [add_zero]
    by_cases hke : k = e
    · subst hke
      obtain rfl : exp = a := by rw [hexp] at ha; exact Option.some.inj ha
      rw [if_pos rfl, if_neg ne]
      refine weigh_withLink ?_
      rw [balanceContributionFilter_withLink, balanceContributionFilter_of_back]
      · intro l hl
        rw [uexp] at hl
        cases hl
      · intro l hl
        obtain rfl := Option.some.inj hl
        rw [hlink, if_pos rfl]
    · rw [if_neg hke]
      by_cases hki : k = i
      · subst hki
        obtain rfl : inc = a := by rw [hinc] at ha; exact Option.some.inj ha
        rw [if_pos rfl]
        refine weigh_withLink ?_
        rw [balanceContributionFilter_withLink, balanceContributionFilter_of_back]
        · intro l hl
          rw [uinc] at hl
          cases hl
        · intro l hl
          obtain rfl := Option.some.inj hl
          rw [hlink, if_neg ne, if_pos rfl]
      · -- a row linked to one of the two one way stays so
        rw [if_neg hki]
        refine weigh_congr fun l hl => ?_
        rw [hlink]
        by_cases hli : l = i
        · subst hli
          rw [if_pos rfl, linkOf_of_get hinc, uinc]
          exact iff_of_false (fun he => hke (Option.some.inj he).symm) (by simp)
        · rw [if_neg hli]
          by_cases hle : l = e
          · subst hle
            rw [if_pos rfl, linkOf_of_get hexp, uexp]
            exact iff_of_false (fun he => hki (Option.some.inj he).symm) (by simp)
          · rw [if_neg hle]
  · rw [Table.total_zero, add_zero]

theorem weight_unpair {rows : Table Transaction} {e i : Nat} {exp inc : Transaction}
    (legs : Mutual rows e exp i inc) (ne : e ≠ i) :
    weight ((rows.modify e (withLink none)).modify i (withLink none)) = weight rows := by
  have hlink := linkOf_modify_two none none legs.left legs.right ne
  refine (weight_relink (δ := fun _ _ => 0) (modify_two_eq_mapRows _ _ _ _ _) ?_).trans ?_
  · intro k a ha
    dsimp only
    rw [add_zero]
    have hleg : ∀ c l, rows.get? k = some c → c.linkedTransactionId = some l → linkOf rows l = some k →
        weigh ((rows.modify e (withLink none)).modify i (withLink none)) (k, withLink none a) =
          weigh rows (k, a) := by
      intro c l hc hcl hback
      obtain rfl : c = a := by rw [hc] at ha; exact Option.some.inj ha
      refine weigh_withLink ?_
      rw [balanceContributionFilter_withLink (by simp), balanceContributionFilter_of_back]
      intro l' hl'
      rw [hcl] at hl'
      obtain rfl := Option.some.inj hl'
      exact hback
    by_cases hke : k = e
    · subst hke
      rw [if_pos rfl, if_neg ne]
      exact hleg exp i legs.left legs.there ((linkOf_of_get legs.right).trans legs.back)
    · rw [if_neg hke]
      by_cases hki : k = i
      · subst hki
        rw [if_pos rfl]
        exact hleg inc e legs.right legs.back ((linkOf_of_get legs.left).trans legs.there)
      · rw [if_neg hki]
        refine weigh_congr fun l hl => ?_
        rw [hlink]
        by_cases hli : l = i
        · subst hli
          rw [if_pos rfl, linkOf_of_get legs.right, legs.back]
          exact iff_of_false (by simp) (fun he => hke (Option.some.inj he).symm)
        · rw [if_neg hli]
          by_cases hle : l = e
          · subst hle
            rw [if_pos rfl, linkOf_of_get legs.left, legs.there]
            exact iff_of_false (by simp) (fun he => hki (Option.some.inj he).symm)
          · rw [if_neg hle]
  · rw [Table.total_zero, add_zero]

theorem weight_mark {rows : Table Transaction} {i k : Nat} {tx target : Transaction}
    (htx : rows.get? i = some tx) (htarget : rows.get? k = some target) (ne : k ≠ i)
    (away : target.linkedTransactionId ≠ some i) (single : ∀ j c, ¬ Mutual rows i tx j c) :
    weight (rows.modify i (withLink (some k))) = weight rows + (-(booked rows (i, tx)), 0) := by
  have hlink := linkOf_modify_withLink (some k) htx
  have hrows : rows.modify i (withLink (some k)) = rows.mapRows (fun j a =>
      if j = i then withLink (some k) a else a) := rfl
  refine (weight_relink (δ := fun j _ => if j = i then (-(booked rows (i, tx)), 0) else 0) hrows ?_).trans ?_
  · intro j a ha
    by_cases hji : j = i
    · subst hji
      obtain rfl : tx = a := by rw [htx] at ha; exact Option.some.inj ha
      rw [if_pos rfl, if_pos rfl]
      have hout : booked (rows.modify j (withLink (some k))) (j, withLink (some k) tx) = 0 := by
        refine booked_of_one_way rfl ?_
        rw [hlink, if_neg ne, linkOf_of_get htarget]
        exact away
      show (_, enrolled (withLink (some k) tx)) = (booked rows (j, tx) + -(booked rows (j, tx)), enrolled tx + 0)
      rw [hout, add_neg_cancel, add_zero]
      rfl
    · rw [if_neg hji, if_neg hji, add_zero]
      refine weigh_congr fun l hl => ?_
      rw [hlink]
      by_cases hli : l = i
      · subst hli
        rw [if_pos rfl]
        refine iff_of_false ?_ ?_
        · intro he
          obtain rfl := Option.some.inj he
          obtain rfl : target = a := by rw [htarget] at ha; exact Option.some.inj ha
          exact away hl
        · intro he
          rw [linkOf_of_get htx] at he
          exact single j a ⟨htx, ha, he, hl⟩
      · rw [if_neg hli]
  · rw [Table.total_single htx]

theorem weight_erase {rows : Table Transaction} {ids : List Nat}
    (orphans : ∀ i a l, rows.get? i = some a → i ∉ ids → a.linkedTransactionId = some l → l ∈ ids →
      a.reconciliationState.isReverted) :
    weight ((rows.remove (ids.contains ·)).mapRows (fun _ t => withoutLinkTo ids t)) =
      weight rows + rows.total (fun i a => if ids.contains i then -(weigh rows (i, a)) else 0) := by
  rw [weight, Table.total_mapRows, Table.total_remove, weight, ← Table.total_add]
  refine Table.total_congr fun i a ha => ?_
  by_cases hi : ids.contains i
  · rw [if_pos hi, if_pos hi, add_neg_cancel]
  · rw [if_neg hi, if_neg hi, add_zero]
    have hi' : i ∉ ids := by simpa using hi
    by_cases horphan : a.linkedTransactionId.any (ids.contains ·)
    · -- the row loses its link, and was out of the balance
      rw [withoutLinkTo, if_pos horphan]
      obtain ⟨l, hl, hmem⟩ := (Option.any_eq_true _ _).mp horphan
      have hrev := orphans i a l ha hi' hl (by simpa using hmem)
      unfold weigh
      rw [booked_of_reverted hrev, booked_of_reverted (a := withLink none a) hrev]
      rfl
    · rw [withoutLinkTo, if_neg horphan]
      refine weigh_congr fun l hl => ?_
      have hlkeep : ids.contains l = false := by simpa [hl] using horphan
      rw [linkOf_erase, if_neg (by simpa using hlkeep)]
      -- the row it links to stays, and so does that row's link to a row that stays
      refine ⟨fun he => (Option.filter_eq_some_iff.mp he).1, fun he => ?_⟩
      exact Option.filter_eq_some_iff.mpr ⟨he, by simpa using hi'⟩

/-- **Every move adds its label to the two totals.** -/
theorem move_weight (hm : Move rules b ε b') (hl : WellLinked b.rows) :
    weight b'.rows = weight b.rows + ε := by
  cases hm with
  | post tx unlinked => exact weight_insert hl unlinked
  | rewrite g keeps fits => exact weight_mapRows fun i a ha => (keeps i a ha).1
  | pair hexp hinc ne uexp uinc legs =>
    rw [add_zero]
    exact weight_pair hexp hinc ne uexp uinc
  | unpair legs =>
    rw [add_zero]
    exact weight_unpair legs (hl _ _ _ legs.left legs.there).1.symm
  | mark htx htarget ne org away single => exact weight_mark htx htarget ne away single
  | erase ids orphans => exact weight_erase orphans
  | hire r fresh => exact (add_zero _).symm
  | amend id f keeps ahead => exact (add_zero _).symm
  | spend hr left forward => exact (add_zero _).symm
  | retire doomed => exact (add_zero _).symm
  | redate allowed id f => exact (add_zero _).symm

/-- **A trail of moves keeps the links in order and adds up to what the totals moved.** -/
theorem trail_orderly (h : Trail (Move rules) b ε b') (ho : Orderly rules b) :
    Orderly rules b' ∧ weight b'.rows = weight b.rows + ε :=
  h.sound (μ := fun b => weight b.rows) (fun _ _ _ ho hm => move_orderly hm ho)
    (fun _ _ _ ho hm => move_weight hm ho.linked) ho

end BetterDecision
