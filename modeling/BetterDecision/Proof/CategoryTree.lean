import BetterDecision.Model.CategoryCalls
import BetterDecision.Proof.Writes

/-!
# The category tree

What every operation keeps, whatever else goes wrong: the tree has two levels, a child has
its master's org and type, and an org that has an income and an expense master, and a child
under one of each, keeps them.

The floor is counted by the source. A count is positive iff there is a category to count
(`floor_iff`), and the two guards that compare counts are read by one lemma:
more rows pass one test than another, so some row passes the one and not the other.
-/

/-- Of two tests the one passed by more rows is passed by a row the other is not. -/
theorem Table.exists_of_length_select_lt {α : Type*} {t : Table α} {test test' : Nat → α → Bool}
    (h : (t.select test').length < (t.select test).length) :
    ∃ i a, t.get? i = some a ∧ test i a = true ∧ test' i a = false := by
  by_contra hnone
  refine absurd h (not_lt.mpr (Table.length_select_mono fun i a ha htest => ?_))
  by_contra hnot
  exact hnone ⟨i, a, ha, htest, by simpa using hnot⟩

/-- One row at most is under an id. -/
theorem Table.length_select_id_le {α : Type*} (t : Table α) (i : Nat) :
    (t.select (fun j _ => j == i)).length ≤ 1 := by
  have hlen := t.length_select (fun j _ => j == i)
  rcases hi : t.get? i with _ | a
  · have hzero : t.total (fun j _ => if (j == i) = true then (1 : Int) else 0) = t.total (fun _ _ => 0) :=
      Table.total_congr fun j b hb => if_neg (by
        intro hj
        rw [beq_iff_eq.mp hj, hi] at hb
        cases hb)
    rw [hzero, Table.total_zero] at hlen
    omega
  · have hone : t.total (fun j _ => if (j == i) = true then (1 : Int) else 0) = 1 := by
      simpa using Table.total_single hi (1 : Int)
    omega

theorem Table.length_select_pos {α : Type*} {t : Table α} {test : Nat → α → Bool} :
    1 ≤ (t.select test).length ↔ ∃ i a, t.get? i = some a ∧ test i a = true := by
  rw [Nat.succ_le_iff, List.length_pos_iff_exists_mem]
  constructor
  · intro ⟨p, hp⟩
    exact ⟨p.1, p.2, Table.mem_select.mp hp⟩
  · intro ⟨i, a, h⟩
    exact ⟨(i, a), Table.mem_select.mpr h⟩

namespace BetterDecision

open CategoryDb

variable {db db' : CategoryDb} {cats cats' : Table Category} {orgId id : Nat}

/-! ## The tree -/

/-- A parent is a master of the same org and type. -/
def TreeOk (cats : Table Category) : Prop :=
  ∀ i c p, cats.get? i = some c → c.parentId = some p →
    ∃ m, cats.get? p = some m ∧ m.orgId = c.orgId ∧ m.parentId = none ∧ m.type = c.type

def HasMaster (cats : Table Category) (orgId : Nat) (type : CategoryType) : Prop :=
  ∃ i c, cats.get? i = some c ∧ c.orgId = orgId ∧ c.parentId = none ∧ c.type = type

/-- A child under a master of the type. -/
def HasSub (cats : Table Category) (orgId : Nat) (type : CategoryType) : Prop :=
  ∃ i c p m, cats.get? i = some c ∧ c.orgId = orgId ∧ c.parentId = some p ∧
    cats.get? p = some m ∧ m.orgId = orgId ∧ m.type = type

/-- The service's floor, as `_floor_counts_for_org` counts it. -/
def Floor (db : CategoryDb) (orgId : Nat) : Prop :=
  1 ≤ (db.floorCountsForOrg orgId).incomeMasters ∧ 1 ≤ (db.floorCountsForOrg orgId).incomeSubs ∧
    1 ≤ (db.floorCountsForOrg orgId).expenseMasters ∧ 1 ≤ (db.floorCountsForOrg orgId).expenseSubs

/-- The types the floor is about. -/
def OneSided (type : CategoryType) : Prop := type ≠ .both

/-- The floor, told by what there is. -/
def HasFloor (cats : Table Category) (orgId : Nat) : Prop :=
  ∀ type, OneSided type → HasMaster cats orgId type ∧ HasSub cats orgId type

theorem one_le_countMasters {type : CategoryType} :
    1 ≤ db.countMasters orgId type ↔ HasMaster db.books.categories orgId type := by
  rw [countMasters, Table.length_select_pos]
  simp [HasMaster, and_assoc]

theorem isSubOf_iff {type : CategoryType} {c : Category} :
    (c.orgId == orgId && c.parentId.any (fun p =>
        (cats.get? p).any (fun m => m.orgId == orgId && m.type == type))) = true ↔
      c.orgId = orgId ∧ ∃ p m, c.parentId = some p ∧ cats.get? p = some m ∧ m.orgId = orgId ∧ m.type = type := by
  rw [Bool.and_eq_true, beq_iff_eq]
  simp only [Option.any_eq_true, Bool.and_eq_true, beq_iff_eq]
  refine and_congr_right fun _ => ?_
  constructor
  · rintro ⟨p, hp, m, hm, horg, htype⟩
    exact ⟨p, m, hp, hm, horg, htype⟩
  · rintro ⟨p, m, hp, hm, horg, htype⟩
    exact ⟨p, hp, m, hm, horg, htype⟩

theorem one_le_countSubs {type : CategoryType} :
    1 ≤ db.countSubs orgId type ↔ HasSub db.books.categories orgId type := by
  rw [countSubs, Table.length_select_pos]
  simp only [isSubOf_iff, HasSub]
  constructor
  · intro ⟨i, c, hc, horg, p, m, h⟩
    exact ⟨i, c, p, m, hc, horg, h⟩
  · intro ⟨i, c, p, m, hc, horg, h⟩
    exact ⟨i, c, hc, horg, p, m, h⟩

theorem floor_iff : Floor db orgId ↔ HasFloor db.books.categories orgId := by
  unfold Floor floorCountsForOrg
  dsimp only
  rw [one_le_countMasters, one_le_countMasters, one_le_countSubs, one_le_countSubs]
  constructor
  · intro ⟨him, his, hem, hes⟩ type htype
    cases type with
    | income => exact ⟨him, his⟩
    | expense => exact ⟨hem, hes⟩
    | both => exact absurd rfl htype
  · intro h
    have hi := h .income (by simp [OneSided])
    have he := h .expense (by simp [OneSided])
    exact ⟨hi.1, hi.2, he.1, he.2⟩

/-- Both invariants at once, as the operations keep them. -/
structure Rooted (cats : Table Category) (orgId : Nat) : Prop where
  tree : TreeOk cats
  floor : HasFloor cats orgId

theorem findCategory_eq_some {books : Db} {c : Category} :
    findCategory books orgId id = some c ↔ books.categories.get? id = some c ∧ c.orgId = orgId := by
  rw [findCategory, Option.filter_eq_some_iff, beq_iff_eq]

theorem TreeOk.depth (h : TreeOk cats) {i p : Nat} {c m : Category} (hc : cats.get? i = some c)
    (hp : c.parentId = some p) (hm : cats.get? p = some m) : m.parentId = none ∧ m.type = c.type := by
  obtain ⟨m', hm', -, hroot, htype⟩ := h i c p hc hp
  obtain rfl : m' = m := Option.some.inj (hm'.symm.trans hm)
  exact ⟨hroot, htype⟩

/-! ## Categories added -/

/-- Nothing lost or rewritten, and what is new is a master that takes both. -/
structure Grown (cats cats' : Table Category) : Prop where
  kept : ∀ i c, cats.get? i = some c → cats'.get? i = some c
  fresh : ∀ i c, cats'.get? i = some c → cats.get? i = some c ∨ c.type = .both ∧ c.parentId = none

theorem Grown.refl (cats : Table Category) : Grown cats cats := ⟨fun _ _ h => h, fun _ _ h => .inl h⟩

theorem Grown.of_eq (h : cats' = cats) : Grown cats cats' := h ▸ .refl cats

theorem Grown.trans {cats'' : Table Category} (h : Grown cats cats') (k : Grown cats' cats'') : Grown cats cats'' where
  kept i c hc := k.kept i c (h.kept i c hc)
  fresh i c hc := by
    rcases k.fresh i c hc with hc | hnew
    · exact h.fresh i c hc
    · exact .inr hnew

theorem Grown.tree (h : Grown cats cats') (ht : TreeOk cats) : TreeOk cats' := by
  intro i c p hc hp
  rcases h.fresh i c hc with hc | ⟨-, hroot⟩
  · obtain ⟨m, hm, hrest⟩ := ht i c p hc hp
    exact ⟨m, h.kept p m hm, hrest⟩
  · rw [hp] at hroot
    cases hroot

theorem Grown.floor (h : Grown cats cats') (hf : HasFloor cats orgId) : HasFloor cats' orgId := by
  intro type htype
  obtain ⟨⟨i, c, hc, hrest⟩, ⟨j, s, p, m, hs, horg, hp, hm, hrest'⟩⟩ := hf type htype
  exact ⟨⟨i, c, h.kept i c hc, hrest⟩, ⟨j, s, p, m, h.kept j s hs, horg, hp, h.kept p m hm, hrest'⟩⟩

theorem Grown.rooted (h : Grown cats cats') (hr : Rooted cats orgId) : Rooted cats' orgId :=
  ⟨h.tree hr.tree, h.floor hr.floor⟩

theorem Grown.insert {c : Category} (htype : c.type = .both) (hroot : c.parentId = none) :
    Grown cats (cats.insert c) where
  kept i a ha := Table.get?_insert_of_some ha
  fresh i a ha := by
    rw [Table.get?_insert] at ha
    split at ha
    · obtain rfl := Option.some.inj ha
      exact .inr ⟨htype, hroot⟩
    · exact .inl ha

/-- A category under a master of its type, or a master, is added. -/
theorem Rooted.insert (h : Rooted cats orgId) {c : Category}
    (hc : ∀ p, c.parentId = some p →
      ∃ m, cats.get? p = some m ∧ m.orgId = c.orgId ∧ m.parentId = none ∧ m.type = c.type) :
    Rooted (cats.insert c) orgId := by
  refine ⟨?_, ?_⟩
  · intro i a p ha hp
    rw [Table.get?_insert] at ha
    split at ha
    · obtain rfl := Option.some.inj ha
      obtain ⟨m, hm, hrest⟩ := hc p hp
      exact ⟨m, Table.get?_insert_of_some hm, hrest⟩
    · obtain ⟨m, hm, hrest⟩ := h.tree i a p ha hp
      exact ⟨m, Table.get?_insert_of_some hm, hrest⟩
  · intro type htype
    obtain ⟨⟨i, a, ha, hrest⟩, ⟨j, s, p, m, hs, horg, hp, hm, hrest'⟩⟩ := h.floor type htype
    exact ⟨⟨i, a, Table.get?_insert_of_some ha, hrest⟩,
      ⟨j, s, p, m, Table.get?_insert_of_some hs, horg, hp, Table.get?_insert_of_some hm, hrest'⟩⟩

theorem createCategory_rooted {org : Nat} {body : CategoryCreate} (h : db.createCategory org body = .ok db')
    (hr : Rooted db.books.categories orgId) : Rooted db'.books.categories orgId := by
  obtain ⟨type, htype, h⟩ := bind_eq_ok.mp h
  obtain rfl := Except.ok.inj h
  refine hr.insert fun p hp => ?_
  unfold effectiveType at htype
  dsimp only at hp
  rw [hp] at htype
  obtain ⟨parent, hfind, htype⟩ := bind_eq_ok.mp htype
  obtain ⟨_, hroot, htype⟩ := bind_eq_ok.mp htype
  obtain ⟨hparent, horg⟩ := findCategory_eq_some.mp (found_eq_ok.mp hfind)
  exact ⟨parent, hparent, horg, not_not.mp (refuse_eq_ok.mp hroot), Except.ok.inj htype⟩

/-! ## Categories regrouped -/

/-- What a rename or a move may do to a row: its org and type stay, and its parent stays or,
for a child, becomes another master of the two. -/
structure Regroups (cats : Table Category) (c c' : Category) : Prop where
  org : c'.orgId = c.orgId
  type : c'.type = c.type
  parent : c'.parentId = c.parentId ∨ c.parentId ≠ none ∧
    ∃ p m, c'.parentId = some p ∧ cats.get? p = some m ∧ m.orgId = c.orgId ∧ m.parentId = none ∧ m.type = c.type

theorem Regroups.refl (c : Category) : Regroups cats c c := ⟨rfl, rfl, .inl rfl⟩

theorem Regroups.root {c c' : Category} (h : Regroups cats c c') (hc : c.parentId = none) : c'.parentId = none := by
  rcases h.parent with hp | ⟨hsub, -⟩
  · rw [hp, hc]
  · exact absurd hc hsub

theorem Regroups.child {c c' : Category} (h : Regroups cats c c') (ht : TreeOk cats) {i p : Nat}
    (hc : cats.get? i = some c) (hp : c'.parentId = some p) :
    ∃ m, cats.get? p = some m ∧ m.orgId = c.orgId ∧ m.parentId = none ∧ m.type = c.type := by
  rcases h.parent with hsame | ⟨-, q, m, hq, hrest⟩
  · exact ht i c p hc (hsame ▸ hp)
  · obtain rfl : q = p := Option.some.inj (hq.symm.trans hp)
    exact ⟨m, hrest⟩

theorem Rooted.mapRows (h : Rooted cats orgId) {g : Nat → Category → Category}
    (hg : ∀ i c, cats.get? i = some c → Regroups cats c (g i c)) : Rooted (cats.mapRows g) orgId := by
  have hget : ∀ {i c}, cats.get? i = some c → (cats.mapRows g).get? i = some (g i c) := by
    intro i c hc
    rw [Table.get?_mapRows, hc, Option.map_some]
  refine ⟨?_, ?_⟩
  · intro i a p ha hp
    rw [Table.get?_mapRows, Option.map_eq_some_iff] at ha
    obtain ⟨c, hc, rfl⟩ := ha
    obtain ⟨m, hm, horg, hroot, htype⟩ := (hg i c hc).child h.tree hc hp
    have hgm := hg p m hm
    exact ⟨g p m, hget hm, by rw [hgm.org, (hg i c hc).org, horg], hgm.root hroot,
      by rw [hgm.type, (hg i c hc).type, htype]⟩
  · intro type htype
    obtain ⟨⟨i, c, hc, horg, hroot, hct⟩, ⟨j, s, p, m, hs, hsorg, hp, hm, hmorg, hmt⟩⟩ := h.floor type htype
    have hgc := hg i c hc
    have hgs := hg j s hs
    refine ⟨⟨i, g i c, hget hc, hgc.org.trans horg, hgc.root hroot, hgc.type.trans hct⟩, ?_⟩
    -- a child that moved is still under a master of its type
    have hst : s.type = type := (h.tree.depth hs hp hm).2.symm.trans hmt
    obtain ⟨q, hq⟩ : ∃ q, (g j s).parentId = some q := by
      rcases hgs.parent with hsame | ⟨-, q, -, hq, -⟩
      · exact ⟨p, hsame.trans hp⟩
      · exact ⟨q, hq⟩
    obtain ⟨n, hn, hnorg, -, hnt⟩ := hgs.child h.tree hs hq
    exact ⟨j, g j s, q, g q n, hget hs, hgs.org.trans hsorg, hq, hget hn,
      by rw [(hg q n hn).org, hnorg, hsorg], by rw [(hg q n hn).type, hnt, hst]⟩

theorem renameCategory_rooted (h : Rooted db.books.categories orgId) (i : Nat) (name : Option String) :
    Rooted (db.renameCategory i name).books.categories orgId := by
  refine h.mapRows (g := fun j c => if j = i then { c with name := name.getD c.name } else c) fun j c _ => ?_
  split
  · exact ⟨rfl, rfl, .inl rfl⟩
  · exact .refl c

/-! ## Moves -/

theorem mapRows_mapRows (cats : Table Category) (f g : Nat → Category → Category) :
    (cats.mapRows f).mapRows g = cats.mapRows (fun i c => g i (f i c)) := by
  refine Table.ext ?_ rfl
  simp [Table.mapRows, Function.comp_def]

/-- The move is allowed on the tree as given: a child, and another master of its org and type. -/
def MoveOk (cats : Table Category) (move : Nat × Nat) : Prop :=
  ∃ s m, cats.get? move.1 = some s ∧ s.parentId ≠ none ∧
    cats.get? move.2 = some m ∧ m.orgId = s.orgId ∧ m.parentId = none ∧ m.type = s.type

theorem resolveForMove_ok {normalize : String → String} {org : Nat} {move : Nat × Nat} {found' : Category × Category}
    (h : resolveForMove normalize db org move.1 move.2 = .ok found') : MoveOk db.books.categories move := by
  obtain ⟨s, hs, h⟩ := bind_eq_ok.mp h
  obtain ⟨p, hp, h⟩ := bind_eq_ok.mp h
  obtain ⟨m, hm, h⟩ := bind_eq_ok.mp h
  obtain ⟨_, hroot, h⟩ := bind_eq_ok.mp h
  obtain ⟨_, _, h⟩ := bind_eq_ok.mp h
  obtain ⟨_, htype, h⟩ := bind_eq_ok.mp h
  obtain ⟨hs, hsorg⟩ := findCategory_eq_some.mp (found_eq_ok.mp hs)
  obtain ⟨hm, hmorg⟩ := findCategory_eq_some.mp (found_eq_ok.mp hm)
  have htype : s.type = m.type := not_not.mp (refuse_eq_ok.mp htype)
  have hroot : m.parentId = none := not_not.mp (refuse_eq_ok.mp hroot)
  refine ⟨s, m, hs, ?_, hm, hmorg.trans hsorg.symm, hroot, htype.symm⟩
  rw [found_eq_ok.mp hp]
  exact Option.some_ne_none p

theorem setParent_rooted (h : Rooted db.books.categories orgId) {move : Nat × Nat}
    (hmove : MoveOk db.books.categories move) : Rooted (db.setParent move).books.categories orgId := by
  obtain ⟨s, m, hs, hsub, hm, horg, hroot, htype⟩ := hmove
  refine h.mapRows (g := fun j c => if j = move.1 then { c with parentId := some move.2 } else c) fun j c hc => ?_
  split
  · rename_i hj
    obtain rfl : s = c := by
      rw [hj, hs] at hc
      exact Option.some.inj hc
    exact ⟨rfl, rfl, .inr ⟨hsub, move.2, m, rfl, hm, horg, hroot, htype⟩⟩
  · exact .refl c

/-- A move leaves every other one allowed: it turns no master into a child and no child into
a master. -/
theorem moveOk_setParent {move other : Nat × Nat} (hmove : MoveOk db.books.categories move)
    (hother : MoveOk db.books.categories other) : MoveOk (db.setParent move).books.categories other := by
  obtain ⟨s, m, hs, hsub, -, -, -, -⟩ := hmove
  obtain ⟨t, n, ht, htsub, hn, hnorg, hnroot, hntype⟩ := hother
  have hget : ∀ {j c}, db.books.categories.get? j = some c → (db.setParent move).books.categories.get? j =
      some (if j = move.1 then { c with parentId := some move.2 } else c) := by
    intro j c hc
    show (db.books.categories.modify move.1 _).get? j = _
    rw [Table.get?_modify, hc]
    split <;> rfl
  have hne : other.2 ≠ move.1 := by
    intro he
    rw [he, hs] at hn
    obtain rfl := Option.some.inj hn
    exact hsub hnroot
  refine ⟨_, n, hget ht, ?_, by rw [hget hn, if_neg hne], ?_, hnroot, ?_⟩
  · split
    · exact Option.some_ne_none _
    · exact htsub
  · split <;> exact hnorg
  · split <;> exact hntype

theorem moveSubcategory_rooted {normalize : String → String} {org sub target : Nat}
    (h : moveSubcategory normalize db org sub target = .ok db') (hr : Rooted db.books.categories orgId) :
    Rooted db'.books.categories orgId := by
  obtain ⟨_, hresolve, h⟩ := bind_eq_ok.mp h
  obtain rfl := Except.ok.inj h
  have hmove : MoveOk db.books.categories (sub, target) := resolveForMove_ok hresolve
  exact setParent_rooted hr hmove

theorem resolveItems_ok {normalize : String → String} {org : Nat} :
    ∀ (moves : List (Nat × Nat)) {seen seen' : List ((Nat × String) × Nat)},
      moves.foldlM (resolveItem normalize db org) seen = .ok seen' → ∀ move ∈ moves, MoveOk db.books.categories move
  | [], _, _, _, _, hmem => by cases hmem
  | move :: moves, seen, seen', h, other, hmem => by
    rw [List.foldlM_cons, bind_eq_ok] at h
    obtain ⟨seen₁, hstep, h⟩ := h
    rcases List.mem_cons.mp hmem with rfl | hmem
    · obtain ⟨_, hresolve, -⟩ := bind_eq_ok.mp hstep
      exact resolveForMove_ok hresolve
    · exact resolveItems_ok moves h other hmem

/-- The moves of a batch one after the other, each allowed on the tree before the first. -/
theorem setParents_rooted (moves : List (Nat × Nat)) :
    ∀ {db : CategoryDb}, Rooted db.books.categories orgId → (∀ move ∈ moves, MoveOk db.books.categories move) →
      Rooted (moves.foldl setParent db).books.categories orgId := by
  induction moves with
  | nil => exact fun hr _ => hr
  | cons move moves ih =>
    intro db hr hok
    have hmove := hok move List.mem_cons_self
    exact ih (setParent_rooted hr hmove) fun other hmem =>
      moveOk_setParent hmove (hok other (List.mem_cons_of_mem _ hmem))

theorem batchMoveSubcategories_rooted {normalize : String → String} {org : Nat} {moves : List (Nat × Nat)}
    (h : batchMoveSubcategories normalize db org moves = .ok db') (hr : Rooted db.books.categories orgId) :
    Rooted db'.books.categories orgId := by
  obtain ⟨_, _, h⟩ := bind_eq_ok.mp h
  obtain ⟨_, hresolve, h⟩ := bind_eq_ok.mp h
  obtain rfl := Except.ok.inj h
  exact setParents_rooted moves hr (resolveItems_ok moves hresolve)

/-! ## The guards of the floor -/

/-- One of two masters of a type is not the one asked about. -/
theorem exists_other_master {type : CategoryType} (h : ¬ db.countMasters orgId type ≤ 1) (id : Nat) :
    ∃ j c, j ≠ id ∧ db.books.categories.get? j = some c ∧ c.orgId = orgId ∧ c.parentId = none ∧ c.type = type := by
  have hlt := (db.books.categories.length_select_id_le id).trans_lt (not_le.mp h)
  obtain ⟨j, c, hc, htest, hne⟩ := Table.exists_of_length_select_lt hlt
  simp only [Bool.and_eq_true, beq_iff_eq, Option.isNone_iff_eq_none] at htest
  exact ⟨j, c, by simpa using hne, hc, htest.1.1, htest.1.2, htest.2⟩

/-- A child of the type's is not among those a shorter list holds. -/
theorem exists_other_sub {type : CategoryType} {test : Nat → Category → Bool}
    (h : (db.books.categories.select test).length < db.countSubs orgId type) :
    ∃ j c p m, db.books.categories.get? j = some c ∧ test j c = false ∧ c.orgId = orgId ∧ c.parentId = some p ∧
      db.books.categories.get? p = some m ∧ m.orgId = orgId ∧ m.type = type := by
  obtain ⟨j, c, hc, hsub, htest⟩ := Table.exists_of_length_select_lt h
  obtain ⟨horg, p, m, hp, hm, hmorg, hmt⟩ := isSubOf_iff.mp hsub
  exact ⟨j, c, p, m, hc, htest, horg, hp, hm, hmorg, hmt⟩

theorem assertMasterFloor_ok {masters subs children : Nat} {lastMaster lastSub : ServiceError}
    (h : assertMasterFloor masters subs children lastMaster lastSub = .ok ()) :
    ¬ masters ≤ 1 ∧ children < subs := by
  obtain ⟨_, hmasters, h⟩ := bind_eq_ok.mp h
  have hsubs := refuse_eq_ok.mp h
  exact ⟨refuse_eq_ok.mp hmasters, by omega⟩

theorem refuseMasterFloor_ok {db : CategoryDb} {cat : Category} {type : CategoryType}
    (htype : cat.type = type) (hroot : cat.parentId = none) (hone : OneSided type)
    (hfloor : HasFloor db.books.categories orgId) (h : assertMinFloorAfterDelete db orgId id cat = .ok ()) :
    ¬ db.countMasters orgId type ≤ 1 ∧ (db.childrenOf orgId id).length < db.countSubs orgId type := by
  unfold assertMinFloorAfterDelete at h
  dsimp only at h
  rw [hroot, htype] at h
  cases type with
  | both => exact absurd rfl hone
  | expense => exact assertMasterFloor_ok h
  | income =>
    obtain ⟨_, hmasters, h⟩ := bind_eq_ok.mp h
    have hsubs := refuse_eq_ok.mp h
    -- the org has a child to begin with, so the guard on its last one is in force
    have hsome := one_le_countSubs.mpr (hfloor .income hone).2
    simp only [floorCountsForOrg] at hsubs
    exact ⟨refuse_eq_ok.mp hmasters, by omega⟩

theorem assertMinFloorAfterTypeChange_ok {db : CategoryDb} {cat : Category} {newType : CategoryType}
    (hne : newType ≠ cat.type) (hroot : cat.parentId = none) (hone : OneSided cat.type)
    (h : assertMinFloorAfterTypeChange db orgId id cat newType = .ok ()) :
    ¬ db.countMasters orgId cat.type ≤ 1 ∧ (db.childrenOf orgId id).length < db.countSubs orgId cat.type := by
  unfold assertMinFloorAfterTypeChange at h
  rw [if_neg (not_or.mpr ⟨hne, hone⟩)] at h
  dsimp only at h
  rw [hroot] at h
  generalize cat.type = type at h hone ⊢
  cases type with
  | both => exact absurd rfl hone
  | expense => exact assertMasterFloor_ok h
  | income => exact assertMasterFloor_ok h

/-! ## Changing a type -/

/-- What is left of the floor apart from one master and its children. -/
def FloorApart (cats : Table Category) (orgId id : Nat) : Prop :=
  ∀ type, OneSided type →
    (∃ j c, j ≠ id ∧ cats.get? j = some c ∧ c.orgId = orgId ∧ c.parentId = none ∧ c.type = type) ∧
      ∃ j c p m, p ≠ id ∧ cats.get? j = some c ∧ c.orgId = orgId ∧ c.parentId = some p ∧
        cats.get? p = some m ∧ m.orgId = orgId ∧ m.type = type

/-- The guards leave the floor standing without the master. -/
theorem Rooted.apart (h : Rooted db.books.categories orgId) {org : Nat} {cat : Category}
    (hcat : findCategory db.books org id = some cat)
    (hguard : org = orgId → OneSided cat.type →
      ¬ db.countMasters orgId cat.type ≤ 1 ∧ (db.childrenOf orgId id).length < db.countSubs orgId cat.type) :
    FloorApart db.books.categories orgId id := by
  obtain ⟨hget, horg⟩ := findCategory_eq_some.mp hcat
  intro type htype
  obtain ⟨⟨i, c, hc, hcorg, hroot, hct⟩, ⟨j, s, p, m, hs, hsorg, hp, hm, hmorg, hmt⟩⟩ := h.floor type htype
  refine ⟨?_, ?_⟩
  · by_cases hi : i = id
    · obtain rfl : cat = c := Option.some.inj (hget.symm.trans (hi ▸ hc))
      have hmasters := (hguard (horg.symm.trans hcorg) (hct ▸ htype)).1
      rw [hct] at hmasters
      exact exists_other_master hmasters id
    · exact ⟨i, c, hi, hc, hcorg, hroot, hct⟩
  · by_cases hpid : p = id
    · obtain rfl : cat = m := Option.some.inj (hget.symm.trans (hpid ▸ hm))
      have hsubs := (hguard (horg.symm.trans hmorg) (hmt ▸ htype)).2
      rw [hmt] at hsubs
      obtain ⟨j', s', p', m', hs', htest, hs'org, hp', hm', hrest⟩ := exists_other_sub hsubs
      refine ⟨j', s', p', m', ?_, hs', hs'org, hp', hm', hrest⟩
      intro he
      simp [hp', he, hs'org] at htest
    · exact ⟨j, s, p, m, hpid, hs, hsorg, hp, hm, hmorg, hmt⟩

theorem setCategoryType_rooted (h : Rooted db.books.categories orgId) {org : Nat} {cat : Category}
    {newType : CategoryType} (hcat : findCategory db.books org id = some cat) (hroot : cat.parentId = none)
    (hapart : FloorApart db.books.categories orgId id) :
    Rooted (db.setCategoryType org id cat newType).books.categories orgId := by
  obtain ⟨hget, horg⟩ := findCategory_eq_some.mp hcat
  let retype (i : Nat) (c : Category) : Category :=
    if i = id ∨ cat.parentId = none ∧ c.parentId = some id ∧ c.orgId = org then { c with type := newType } else c
  have hnew : ∀ {i c}, db.books.categories.get? i = some c →
      (db.setCategoryType org id cat newType).books.categories.get? i = some (retype i c) := by
    intro i c hc
    show (db.books.categories.mapRows retype).get? i = _
    rw [Table.get?_mapRows, hc, Option.map_some]
  have hparent : ∀ i c, (retype i c).parentId = c.parentId := by
    intro i c
    show (if _ then _ else _ : Category).parentId = _
    split <;> rfl
  have horgs : ∀ i c, (retype i c).orgId = c.orgId := by
    intro i c
    show (if _ then _ else _ : Category).orgId = _
    split <;> rfl
  have hother : ∀ {i c}, i ≠ id → c.parentId ≠ some id → retype i c = c := by
    intro i c hi hp
    exact if_neg (not_or.mpr ⟨hi, fun hc => hp hc.2.1⟩)
  refine ⟨?_, ?_⟩
  · intro i a p ha hp
    rw [show (db.setCategoryType org id cat newType).books.categories = db.books.categories.mapRows retype from rfl,
      Table.get?_mapRows, Option.map_eq_some_iff] at ha
    obtain ⟨c, hc, rfl⟩ := ha
    rw [hparent] at hp
    obtain ⟨m, hm, hmorg, hmroot, hmt⟩ := h.tree i c p hc hp
    refine ⟨retype p m, hnew hm, by rw [horgs, horgs, hmorg], by rw [hparent, hmroot], ?_⟩
    by_cases hpid : p = id
    · -- the child goes with its master
      obtain rfl : cat = m := Option.some.inj (hget.symm.trans (hpid ▸ hm))
      have hchild : retype i c = { c with type := newType } :=
        if_pos (.inr ⟨hroot, hpid ▸ hp, hmorg.symm.trans horg⟩)
      have hmaster : retype p cat = { cat with type := newType } := if_pos (.inl hpid)
      rw [hchild, hmaster]
    · have hi : i ≠ id := by
        intro hi
        obtain rfl : cat = c := Option.some.inj (hget.symm.trans (hi ▸ hc))
        rw [hroot] at hp
        cases hp
      rw [hother hi (by rw [hp]; exact fun he => hpid (Option.some.inj he)),
        hother hpid (by rw [hmroot]; exact nofun), hmt]
  · intro type htype
    obtain ⟨⟨i, c, hi, hc, hcorg, hcroot, hct⟩, ⟨j, s, p, m, hpid, hs, hsorg, hp, hm, hmorg, hmt⟩⟩ := hapart type htype
    have hj : j ≠ id := by
      intro hj
      obtain rfl : cat = s := Option.some.inj (hget.symm.trans (hj ▸ hs))
      rw [hroot] at hp
      cases hp
    have hmroot := (h.tree.depth hs hp hm).1
    refine ⟨⟨i, c, ?_, hcorg, hcroot, hct⟩, ⟨j, s, p, m, ?_, hsorg, hp, ?_, hmorg, hmt⟩⟩
    · rw [hnew hc, hother hi (by rw [hcroot]; exact nofun)]
    · rw [hnew hs, hother hj (by rw [hp]; exact fun he => hpid (Option.some.inj he))]
    · rw [hnew hm, hother hpid (by rw [hmroot]; exact nofun)]

/-- A subcategory keeps its master's type, so the type that changes is a master's. -/
theorem master_of_type_change (ht : TreeOk db.books.categories) {org : Nat} {cat : Category} {body : CategoryUpdate}
    {newType : CategoryType} (hcat : findCategory db.books org id = some cat) (htype : body.type = some newType)
    (hne : newType ≠ cat.type) (h : refuseSubcategoryType db org cat body = .ok ()) : cat.parentId = none := by
  obtain ⟨hget, horg⟩ := findCategory_eq_some.mp hcat
  rcases hp : cat.parentId with _ | p
  · rfl
  · exfalso
    obtain ⟨m, hm, hmorg, -, hmt⟩ := ht id cat p hget hp
    have hfind : findCategory db.books org p = some m := findCategory_eq_some.mpr ⟨hm, hmorg.trans horg⟩
    unfold refuseSubcategoryType at h
    rw [hp, htype] at h
    have hsame := refuse_eq_ok.mp h
    rw [hfind, Option.map_some, hmt] at hsame
    exact hsame ⟨hne, fun he => hne (Option.some.inj he).symm⟩

/-- What an update did: a new name, or a new type of a master and its children as well. -/
theorem updateCategory_cases {org : Nat} {body : CategoryUpdate} (h : db.updateCategory org id body = .ok db') :
    db' = db.renameCategory id body.name ∨
      ∃ cat newType, findCategory db.books org id = some cat ∧ body.type = some newType ∧ newType ≠ cat.type ∧
        refuseSubcategoryType db org cat body = .ok () ∧ validateCategoryTypeChange db id cat newType = .ok () ∧
        assertMinFloorAfterTypeChange db org id cat newType = .ok () ∧
        db' = (db.setCategoryType org id cat newType).renameCategory id body.name := by
  obtain ⟨cat, hcat, h⟩ := bind_eq_ok.mp h
  obtain ⟨_, hsub, h⟩ := bind_eq_ok.mp h
  rcases htype : body.type with _ | newType
  · rw [htype] at h
    exact .inl (Except.ok.inj h).symm
  · rw [htype] at h
    dsimp only at h
    split at h
    · exact .inl (Except.ok.inj h).symm
    · rename_i hne
      obtain ⟨_, hvalid, h⟩ := bind_eq_ok.mp h
      obtain ⟨_, hfloor, h⟩ := bind_eq_ok.mp h
      exact .inr ⟨cat, newType, found_eq_ok.mp hcat, rfl, hne, hsub, hvalid, hfloor, (Except.ok.inj h).symm⟩

theorem updateCategory_rooted {org : Nat} {body : CategoryUpdate} (h : db.updateCategory org id body = .ok db')
    (hr : Rooted db.books.categories orgId) : Rooted db'.books.categories orgId := by
  rcases updateCategory_cases h with rfl | ⟨cat, newType, hcat, htype, hne, hsub, -, hfloor, rfl⟩
  · exact renameCategory_rooted hr id body.name
  · have hroot := master_of_type_change hr.tree hcat htype hne hsub
    refine renameCategory_rooted (setCategoryType_rooted hr hcat hroot (hr.apart hcat ?_)) id body.name
    intro horg hone
    subst horg
    exact assertMinFloorAfterTypeChange_ok hne hroot hone hfloor

/-! ## Deleting -/

theorem migrateTo_categories (org source target : Nat) :
    (db.migrateTo org source target).books.categories = db.books.categories := rfl

theorem remove_rooted (h : Rooted cats orgId) (hleaf : ∀ i c, cats.get? i = some c → c.parentId ≠ some id)
    (hfloor : ∀ type, OneSided type →
      (∃ j c, j ≠ id ∧ cats.get? j = some c ∧ c.orgId = orgId ∧ c.parentId = none ∧ c.type = type) ∧
        ∃ j c p m, j ≠ id ∧ cats.get? j = some c ∧ c.orgId = orgId ∧ c.parentId = some p ∧
          cats.get? p = some m ∧ m.orgId = orgId ∧ m.type = type) :
    Rooted (cats.remove (· == id)) orgId := by
  have hget : ∀ {i c}, i ≠ id → cats.get? i = some c → (cats.remove (· == id)).get? i = some c := by
    intro i c hi hc
    rw [Table.get?_remove, if_neg (by simpa using hi), hc]
  refine ⟨?_, ?_⟩
  · intro i c p hc hp
    rw [Table.get?_remove] at hc
    split at hc
    · cases hc
    · obtain ⟨m, hm, hrest⟩ := h.tree i c p hc hp
      have hpid : p ≠ id := fun he => hleaf i c hc (he ▸ hp)
      exact ⟨m, hget hpid hm, hrest⟩
  · intro type htype
    obtain ⟨⟨i, c, hi, hc, hrest⟩, ⟨j, s, p, m, hj, hs, hsorg, hp, hm, hrest'⟩⟩ := hfloor type htype
    have hpid : p ≠ id := fun he => hleaf j s hs (he ▸ hp)
    exact ⟨⟨i, c, hget hi hc, hrest⟩, ⟨j, s, p, m, hget hj hs, hsorg, hp, hget hpid hm, hrest'⟩⟩

/-- The guards a delete passed, whichever way it went on. -/
theorem planCategoryDelete_ok {org : Nat} {target : Option Nat} {migration : Option Nat}
    (h : planCategoryDelete db org id target = .ok migration) :
    ∃ cat, findCategory db.books org id = some cat ∧
      (cat.parentId = none → (db.childrenOf org id).isEmpty = true) ∧
      assertMinFloorAfterDelete db org id cat = .ok () ∧
      ((migration = none ∧ (db.dependentBreakdown org id).total = 0) ∨
        ∃ targetId targetCat, migration = some targetId ∧ targetId ≠ id ∧
          findCategory db.books org targetId = some targetCat ∧
          checkTargetCompatibilityForDelete cat targetCat (db.dependentBreakdown org id) = .ok ()) := by
  obtain ⟨cat, hcat, h⟩ := bind_eq_ok.mp h
  obtain ⟨_, hchildren, h⟩ := bind_eq_ok.mp h
  obtain ⟨_, hfloor, h⟩ := bind_eq_ok.mp h
  have hleaf := refuse_eq_ok.mp hchildren
  refine ⟨cat, found_eq_ok.mp hcat, fun hroot => not_not.mp fun hne => hleaf ⟨hroot, hne⟩, hfloor, ?_⟩
  dsimp only at h
  split at h
  · rename_i hzero
    exact .inl ⟨(Except.ok.inj h).symm, hzero⟩
  · obtain ⟨targetId, _, h⟩ := bind_eq_ok.mp h
    obtain ⟨_, hne, h⟩ := bind_eq_ok.mp h
    obtain ⟨targetCat, htarget, h⟩ := bind_eq_ok.mp h
    obtain ⟨_, _, h⟩ := bind_eq_ok.mp h
    obtain ⟨_, hcompat, h⟩ := bind_eq_ok.mp h
    exact .inr ⟨targetId, targetCat, (Except.ok.inj h).symm, refuse_eq_ok.mp hne, found_eq_ok.mp htarget, hcompat⟩

/-- What a delete did: the rules dropped or the rows migrated, and the category gone. -/
theorem deleteCategory_cases {org : Nat} {target : Option Nat}
    (h : db.deleteCategoryWithMigration org id target = .ok db') :
    ∃ migration, planCategoryDelete db org id target = .ok migration ∧
      ((migration = none ∧ db' = (db.dropRules id).removeCategory org id) ∨
        ∃ targetId, migration = some targetId ∧ db' = (db.migrateTo org id targetId).removeCategory org id) := by
  obtain ⟨migration, hplan, h⟩ := bind_eq_ok.mp h
  refine ⟨migration, hplan, ?_⟩
  cases migration with
  | none => exact .inl ⟨rfl, (Except.ok.inj h).symm⟩
  | some targetId => exact .inr ⟨targetId, rfl, (Except.ok.inj h).symm⟩

theorem deleteCategory_categories {org : Nat} {target : Option Nat}
    (h : db.deleteCategoryWithMigration org id target = .ok db') :
    db'.books.categories = db.books.categories.remove (· == id) := by
  obtain ⟨_, -, ⟨-, rfl⟩ | ⟨targetId, -, rfl⟩⟩ := deleteCategory_cases h
  · rfl
  · rfl

/-- No row hangs under a category that may be deleted. -/
theorem leaf_of_deletable (ht : TreeOk db.books.categories) {org : Nat} {cat : Category}
    (hcat : findCategory db.books org id = some cat)
    (hchildren : cat.parentId = none → (db.childrenOf org id).isEmpty = true) :
    ∀ i c, db.books.categories.get? i = some c → c.parentId ≠ some id := by
  intro i c hc hp
  obtain ⟨hget, horg⟩ := findCategory_eq_some.mp hcat
  obtain ⟨m, hm, hmorg, hmroot, -⟩ := ht i c id hc hp
  obtain rfl : cat = m := Option.some.inj (hget.symm.trans hm)
  have hmem : (i, c) ∈ db.childrenOf org id := Table.mem_select.mpr ⟨hc, by simp [hp, ← hmorg, horg]⟩
  rw [List.isEmpty_iff.mp (hchildren hmroot)] at hmem
  cases hmem

/-- Deleting a child leaves another one under a master of the type. -/
theorem exists_sub_of_deletable (h : Rooted db.books.categories orgId) {org p : Nat} {cat : Category}
    (hcat : findCategory db.books org id = some cat) (hp : cat.parentId = some p)
    (hfloor : assertMinFloorAfterDelete db org id cat = .ok ()) {type : CategoryType} (htype : OneSided type) :
    ∃ j c q m, j ≠ id ∧ db.books.categories.get? j = some c ∧ c.orgId = orgId ∧ c.parentId = some q ∧
      db.books.categories.get? q = some m ∧ m.orgId = orgId ∧ m.type = type := by
  obtain ⟨hget, horg⟩ := findCategory_eq_some.mp hcat
  obtain ⟨-, ⟨j, s, q, m, hs, hsorg, hq, hm, hmorg, hmt⟩⟩ := h.floor type htype
  by_cases hj : j = id
  · obtain rfl : cat = s := Option.some.inj (hget.symm.trans (hj ▸ hs))
    obtain rfl : q = p := Option.some.inj (hq.symm.trans hp)
    have hsame : org = orgId := horg.symm.trans hsorg
    subst hsame
    have hfind : findCategory db.books org q = some m := findCategory_eq_some.mpr ⟨hm, hmorg⟩
    have hmore : ¬ db.countSubs org type ≤ 1 := by
      unfold assertMinFloorAfterDelete at hfloor
      dsimp only at hfloor
      rw [hp] at hfloor
      dsimp only at hfloor
      rw [hfind] at hfloor
      dsimp only at hfloor
      rw [hmt] at hfloor
      cases type with
      | both => exact absurd rfl htype
      | income => exact refuse_eq_ok.mp hfloor
      | expense => exact refuse_eq_ok.mp hfloor
    have hlt := (db.books.categories.length_select_id_le id).trans_lt (not_le.mp hmore)
    obtain ⟨j', s', p', m', hs', hne, hrest⟩ := exists_other_sub hlt
    exact ⟨j', s', p', m', by simpa using hne, hs', hrest⟩
  · exact ⟨j, s, q, m, hj, hs, hsorg, hq, hm, hmorg, hmt⟩

theorem deleteCategory_rooted {org : Nat} {target : Option Nat}
    (h : db.deleteCategoryWithMigration org id target = .ok db') (hr : Rooted db.books.categories orgId) :
    Rooted db'.books.categories orgId := by
  rw [deleteCategory_categories h]
  obtain ⟨_, hplan, -⟩ := deleteCategory_cases h
  obtain ⟨cat, hcat, hchildren, hfloor, -⟩ := planCategoryDelete_ok hplan
  obtain ⟨hget, horg⟩ := findCategory_eq_some.mp hcat
  refine remove_rooted hr (leaf_of_deletable hr.tree hcat hchildren) fun type htype => ?_
  rcases hp : cat.parentId with _ | p
  · -- a master: the floor stands without it, and a child elsewhere is not the master
    have hapart : FloorApart db.books.categories orgId id := hr.apart hcat fun hsame hone => by
      subst hsame
      exact refuseMasterFloor_ok rfl hp hone hr.floor hfloor
    obtain ⟨hmaster, ⟨j, s, q, m, -, hs, hsorg, hq, hrest⟩⟩ := hapart type htype
    refine ⟨hmaster, j, s, q, m, ?_, hs, hsorg, hq, hrest⟩
    intro hj
    obtain rfl : cat = s := Option.some.inj (hget.symm.trans (hj ▸ hs))
    rw [hp] at hq
    cases hq
  · refine ⟨?_, exists_sub_of_deletable hr hcat hp hfloor htype⟩
    obtain ⟨⟨i, c, hc, hcorg, hroot, hct⟩, -⟩ := hr.floor type htype
    refine ⟨i, c, ?_, hc, hcorg, hroot, hct⟩
    intro hi
    obtain rfl : cat = c := Option.some.inj (hget.symm.trans (hi ▸ hc))
    rw [hp] at hroot
    cases hroot

end BetterDecision
