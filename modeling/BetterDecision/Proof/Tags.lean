import BetterDecision.Model.Tags

/-!
# The counts of the shared dictionary

A transaction owes the dictionary what it has written so far: the rows it added less the
rows it removed, less what it has still to count (`TagTx.owed`). Its locks keep what it
knows of the committed rows as it is (`TxInv`), so a commit moves the counts and the
contributors together. The one value it does not read under a lock is the count it
increments: `countContributor` writes back the value of an earlier plain read.
-/

namespace BetterDecision

/-! ## Counts -/

@[ext] theorem TagDictionary.ext {r s : TagDictionary} (h : r.contributorOrgCount = s.contributorOrgCount)
    (h' : r.usageCount = s.usageCount) : r = s := by
  cases r
  cases s
  simp_all

@[simp] theorem shift_zero (r : TagDictionary) : r.shift 0 = r := by simp [TagDictionary.shift]

@[simp] theorem shift_shift (r : TagDictionary) (d e : Int) : (r.shift d).shift e = r.shift (d + e) := by
  simp [TagDictionary.shift, Int.add_assoc]

/-- No row is a row of zeros. -/
def countsOf (row : Option TagDictionary) : TagDictionary := row.getD .zero

/-- The contributor rows of a name. -/
def contributorCount (db : TagDb) (name : String) : Nat :=
  db.contributors.countP (fun c => c.dictionaryTag == name)

theorem apply_isSome {row : Option TagDictionary} (h : row.isSome = true) (write : DictionaryWrite) :
    (write.apply row).isSome = true := by
  cases write <;> simp [DictionaryWrite.apply, h]

variable {ws : TagWrites} {db db' : TagDb} {name : String}

theorem dictionaryRow_isSome (h : (db.dictionary name).isSome = true) : (ws.dictionaryRow db name).isSome = true := by
  unfold TagWrites.dictionaryRow
  generalize (ws.dictionary.filter (·.1 == name)).map Prod.snd = writes
  generalize db.dictionary name = row at h
  induction writes generalizing row with
  | nil => exact h
  | cons write writes ih => exact ih _ (apply_isSome h write)

/-- A row nobody has written. -/
theorem dictionaryRow_of_not_mem (h : ∀ p ∈ ws.dictionary, p.1 ≠ name) : ws.dictionaryRow db name = db.dictionary name := by
  have hnone : ws.dictionary.filter (·.1 == name) = [] := List.filter_eq_nil_iff.mpr fun p hp => by simpa using h p hp
  rw [TagWrites.dictionaryRow, hnone]
  rfl

/-- One more write of the dictionary. -/
theorem dictionaryRow_concat (ws : TagWrites) (db : TagDb) (name n : String) (write : DictionaryWrite) :
    { ws with dictionary := ws.dictionary ++ [(name, write)] }.dictionaryRow db n =
      if n = name then write.apply (ws.dictionaryRow db n) else ws.dictionaryRow db n := by
  simp only [TagWrites.dictionaryRow, List.filter_append]
  by_cases hn : n = name
  · subst hn
    simp
  · have hne : (name == n) = false := by simpa using fun h => hn h.symm
    simp [hn, hne]

/-! ## What a transaction knows -/

/-- The contributions it removes, or is about to. -/
def TagTx.taken (tx : TagTx) : List String :=
  match tx.phase with
  | .subtracting rows _ _ => tx.writes.removed ++ rows
  | _ => tx.writes.removed

/-- What its contributor rows are ahead of its counts. -/
def TagTx.owed (tx : TagTx) (name : String) : Int :=
  match tx.phase with
  | .counting n _ _ => if n = name then 1 else 0
  | .subtracting rows rest _ => (rows.count name : Int) - rest.count name
  | _ => 0

/-- What it moves the counts of a name by. -/
def TagTx.moved (tx : TagTx) (name : String) : Int :=
  (tx.writes.added.count name : Int) - tx.writes.removed.count name - tx.owed name

/-- The tag whose contribution is withdrawn by now. -/
def TagTx.target (tx : TagTx) : Option Nat :=
  match tx.phase with
  | .subtracting _ _ write => write.map TagWrite.row
  | .flushing write => some write.row
  | _ => tx.writes.tag.map TagWrite.row

/-- All contributions of the org are taken. -/
def CoversOrg (db : TagDb) (tx : TagTx) : Prop :=
  ∀ c ∈ db.contributors, c.contributorOrgId = tx.call.orgId → c.dictionaryTag ∈ tx.taken

/-- The contribution that came with a tag is taken. -/
def CoversTag (tagOf : String → Nat → Nat) (db : TagDb) (tx : TagTx) (tag : Nat) : Prop :=
  ∀ c ∈ db.contributors, tagOf c.dictionaryTag c.contributorOrgId = tag →
    c.contributorOrgId = tx.call.orgId ∧ c.dictionaryTag ∈ tx.taken

/-- It has the org's setting locked, and the org shares. -/
def Sharing (db : TagDb) (tx : TagTx) (name : String) : Prop :=
  .setting tx.call.orgId ∈ tx.locks ∧ isShareTagDataEnabled db tx.call.orgId = true ∧ name ∈ tx.writes.inserted

/-- It has written no tag and no setting. -/
def TagWrites.Creates (ws : TagWrites) : Prop := ws.tag = none ∧ ws.setting = none

/-- A withdrawal is for the name of a tag as the snapshot shows it, or for all names. -/
def WithdrawalKnows (tx : TagTx) (names : Option (List String)) : Option TagWrite → Prop
  | some write => tx.writes.setting = none ∧
      ∃ s, tx.snapshot.tags.get? write.row = some s ∧ s.orgId = tx.call.orgId ∧ names = some [s.nameNormalized]
  | none => names = none

/-- What it knows where it stands. -/
def PhaseKnows (db : TagDb) (tx : TagTx) : TagPhase → Prop
  | .begun => tx.writes = {}
  | .resolving _ => tx.writes.Creates
  | .inserting _ _ => tx.writes.Creates
  | .asking name _ => tx.writes.Creates ∧ name ∈ tx.writes.inserted
  | .locking name _ => tx.writes.Creates ∧ name ∈ tx.writes.inserted
  | .selecting name _ => tx.writes.Creates ∧ Sharing db tx name
  | .creating name _ => tx.writes.Creates ∧ Sharing db tx name
  | .refetching name _ => tx.writes.Creates ∧ Sharing db tx name
  | .checking name _ _ => tx.writes.Creates ∧ Sharing db tx name
  | .contributing name _ _ => tx.writes.Creates ∧ Sharing db tx name
  | .counting _ _ _ => tx.writes.Creates
  | .writingSetting _ => tx.writes = {}
  | .withdrawing names write =>
    tx.writes.added = [] ∧ tx.writes.removed = [] ∧ tx.writes.tag = none ∧ WithdrawalKnows tx names write
  | .subtracting rows rest _ => tx.writes.added = [] ∧ tx.writes.removed = [] ∧ tx.writes.tag = none ∧ rest ⊆ rows
  | .flushing _ => tx.writes.added = [] ∧ tx.writes.tag = none
  | .ready => True
  | .done _ => tx.writes = {}

/-- The setting it wrote stands, and if the org stops sharing its contributions are taken,
once it has read them. -/
def SettingKnows (db : TagDb) (tx : TagTx) : Prop :=
  ∀ sw, tx.writes.setting = some sw →
    .setting tx.call.orgId ∈ tx.locks ∧
      (sw.stops = true → (∃ names write, tx.phase = .withdrawing names write) ∨ CoversOrg db tx)

structure TxInv (tagOf : String → Nat → Nat) (db : TagDb) (tx : TagTx) : Prop where
  added : ∀ n ∈ tx.writes.added, n ∈ tx.writes.inserted ∧ .contributor n tx.call.orgId ∈ tx.locks ∧
    { dictionaryTag := n, contributorOrgId := tx.call.orgId } ∉ db.contributors ∧
      .setting tx.call.orgId ∈ tx.locks ∧ isShareTagDataEnabled db tx.call.orgId = true
  addedOnce : tx.writes.added.Nodup
  taken : ∀ n ∈ tx.taken, .contributor n tx.call.orgId ∈ tx.locks ∧
    { dictionaryTag := n, contributorOrgId := tx.call.orgId } ∈ db.contributors
  takenOnce : tx.taken.Nodup
  dictionary : ∀ p ∈ tx.writes.dictionary, .dictionary p.1 ∈ tx.locks
  counts : ∀ n, countsOf (tx.writes.dictionaryRow db n) = (countsOf (db.dictionary n)).shift (tx.moved n)
  creates : tx.writes.added = [] ∨ tx.writes.Creates
  setting : SettingKnows db tx
  target : ∀ tag, tx.target = some tag → tag < db.tags.next ∧ CoversTag tagOf db tx tag
  knows : PhaseKnows db tx tx.phase
  next : tx.snapshot.tags.next ≤ db.tags.next
  /-- A tag whose contribution is there has not been renamed. -/
  snapshot : ∀ c ∈ db.contributors, ∀ s, tx.snapshot.tags.get? (tagOf c.dictionaryTag c.contributorOrgId) = some s →
    s = { orgId := c.contributorOrgId, nameNormalized := c.dictionaryTag }

/-- The committed tables agree. `tagOf` is the tag a contribution came with. -/
structure TagsSound (tagOf : String → Nat → Nat) (db : TagDb) : Prop where
  counts : ∀ n, countsOf (db.dictionary n) = TagDictionary.zero.shift (contributorCount db n)
  once : db.contributors.Nodup
  shares : ∀ c ∈ db.contributors, isShareTagDataEnabled db c.contributorOrgId = true
  tagged : ∀ c ∈ db.contributors, db.tags.get? (tagOf c.dictionaryTag c.contributorOrgId) =
    some { orgId := c.contributorOrgId, nameNormalized := c.dictionaryTag }

/-- An increment to come writes over the value it read. -/
def TagTx.countIsCurrent (db : TagDb) (tx : TagTx) : Bool :=
  match tx.phase with
  | .counting name row _ => (tx.writes.dictionaryRow db name).all (· == row)
  | _ => true

/-- Every increment writes over the value it read. -/
def CountsCurrent (w : TagWorld) : TagEvent → Prop
  | .next id => (w.txs.get? id).all (·.countIsCurrent w.db) = true
  | _ => True

instance decidableCountsCurrent (w : TagWorld) (ev : TagEvent) : Decidable (CountsCurrent w ev) :=
  match ev with
  | .next id => inferInstanceAs (Decidable ((w.txs.get? id).all (·.countIsCurrent w.db) = true))
  | .begin _ | .commit _ | .fail _ => .isTrue trivial

/-! ## A statement keeps what its transaction knows -/

section Statements

variable {tagOf : String → Nat → Nat} {w : TagWorld} {id : Nat} {tx tx' : TagTx} {rest : List String}

/-- Nothing is half withdrawn, half counted, or about to be read for a withdrawal. -/
def TagPhase.isPlain : TagPhase → Bool
  | .counting _ _ _ => false
  | .withdrawing _ _ => false
  | .subtracting _ _ _ => false
  | .flushing _ => false
  | _ => true

theorem taken_of_plain (h : tx.phase.isPlain = true) : tx.taken = tx.writes.removed := by
  unfold TagTx.taken
  split
  · rename_i hphase
    rw [hphase] at h
    cases h
  · rfl

theorem owed_of_plain (h : tx.phase.isPlain = true) (n : String) : tx.owed n = 0 := by
  unfold TagTx.owed
  split
  · rename_i hphase
    rw [hphase] at h
    cases h
  · rename_i hphase
    rw [hphase] at h
    cases h
  · rfl

theorem target_of_plain (h : tx.phase.isPlain = true) : tx.target = tx.writes.tag.map TagWrite.row := by
  unfold TagTx.target
  split
  · rename_i hphase
    rw [hphase] at h
    cases h
  · rename_i hphase
    rw [hphase] at h
    cases h
  · rfl

theorem settingKnows_of_none (h : tx.writes.setting = none) : SettingKnows db tx := fun sw hsw => by
  rw [h] at hsw
  cases hsw

/-- From one plain statement to the next. -/
theorem TxInv.goto (h : TxInv tagOf db tx) (hphase : tx.phase.isPlain = true) {phase : TagPhase}
    (hplain : phase.isPlain = true) (hknows : PhaseKnows db tx phase) : TxInv tagOf db (tx.goto phase) := by
  have hplain' : (tx.goto phase).phase.isPlain = true := hplain
  have htaken : (tx.goto phase).taken = tx.taken := by
    rw [taken_of_plain hphase, taken_of_plain hplain']
    rfl
  have hmoved : ∀ n, (tx.goto phase).moved n = tx.moved n := fun n => by
    rw [TagTx.moved, TagTx.moved, owed_of_plain hphase, owed_of_plain hplain']
    rfl
  have htarget : (tx.goto phase).target = tx.target := by
    rw [target_of_plain hphase, target_of_plain hplain']
    rfl
  exact
    { added := h.added
      addedOnce := h.addedOnce
      taken := by rw [htaken]; exact h.taken
      takenOnce := by rw [htaken]; exact h.takenOnce
      dictionary := h.dictionary
      counts := fun n => by rw [hmoved]; exact h.counts n
      creates := h.creates
      setting := fun sw hsw => by
        obtain ⟨hlock, hstops⟩ := h.setting sw hsw
        refine ⟨hlock, fun hs => .inr ?_⟩
        rcases hstops hs with ⟨names, write, hwas⟩ | hcovers
        · rw [hwas] at hphase
          cases hphase
        · intro c hc horg
          rw [htaken]
          exact hcovers c hc horg
      target := fun tag htag => by
        rw [htarget] at htag
        obtain ⟨hlt, hcovers⟩ := h.target tag htag
        refine ⟨hlt, fun c hc hof => ?_⟩
        rw [htaken]
        exact hcovers c hc hof
      knows := hknows
      next := h.next
      snapshot := h.snapshot }

theorem Sharing.lock (h : Sharing db tx name) (locks : List TagLock) : Sharing db (tx.lock locks) name :=
  ⟨List.mem_append_right _ h.1, h.2⟩

theorem PhaseKnows.lock {phase : TagPhase} (h : PhaseKnows db tx phase) (locks : List TagLock) :
    PhaseKnows db (tx.lock locks) phase := by
  cases phase with
  | selecting | creating | refetching | checking | contributing => exact ⟨h.1, h.2.lock locks⟩
  | _ => exact h

/-- A lock more. -/
theorem TxInv.lock (h : TxInv tagOf db tx) (locks : List TagLock) : TxInv tagOf db (tx.lock locks) where
  added n hn := by
    obtain ⟨hins, hc, hnew, hs, hen⟩ := h.added n hn
    exact ⟨hins, List.mem_append_right _ hc, hnew, List.mem_append_right _ hs, hen⟩
  addedOnce := h.addedOnce
  taken n hn := ⟨List.mem_append_right _ (h.taken n hn).1, (h.taken n hn).2⟩
  takenOnce := h.takenOnce
  dictionary p hp := List.mem_append_right _ (h.dictionary p hp)
  counts := h.counts
  creates := h.creates
  setting sw hsw := ⟨List.mem_append_right _ (h.setting sw hsw).1, (h.setting sw hsw).2⟩
  target := h.target
  knows := h.knows.lock locks
  next := h.next
  snapshot := h.snapshot

/-- A transaction that is over knows nothing. -/
theorem TxInv.finish (h : TxInv tagOf db tx) (outcome : Except TagError Unit) : TxInv tagOf db (tx.finish outcome) where
  added n hn := by cases hn
  addedOnce := .nil
  taken n hn := by cases hn
  takenOnce := .nil
  dictionary p hp := by cases hp
  counts n := by
    rw [dictionaryRow_of_not_mem fun p hp => by cases hp]
    simp [TagTx.finish, TagTx.moved, TagTx.owed]
  creates := .inl rfl
  setting sw hsw := by cases hsw
  target tag htag := by cases htag
  knows := rfl
  next := h.next
  snapshot := h.snapshot

/-- What a statement leaves, and the locks it took. -/
structure Advances (tagOf : String → Nat → Nat) (w : TagWorld) (id : Nat) (tx tx' : TagTx) : Prop where
  inv : TxInv tagOf w.db tx'
  locks : ∀ k ∈ tx'.locks, k ∈ tx.locks ∨ ¬ w.Waits id (· = k)

/-- A statement that locks nothing. -/
theorem Advances.quiet (hinv : TxInv tagOf w.db tx') (hlocks : tx'.locks = tx.locks) : Advances tagOf w id tx tx' :=
  ⟨hinv, fun _ hk => .inl (hlocks ▸ hk)⟩

theorem Advances.finish (h : TxInv tagOf w.db tx) (outcome : Except TagError Unit) :
    Advances tagOf w id tx (tx.finish outcome) :=
  ⟨h.finish outcome, fun _ hk => by cases hk⟩

/-- A statement that took one lock. -/
theorem Advances.locked {k : TagLock} (hfree : ¬ w.Waits id (· = k)) (hinv : TxInv tagOf w.db tx')
    (hlocks : tx'.locks = k :: tx.locks) : Advances tagOf w id tx tx' := by
  refine ⟨hinv, fun k' hk' => ?_⟩
  rw [hlocks] at hk'
  rcases List.mem_cons.mp hk' with rfl | hk'
  · exact .inr hfree
  · exact .inl hk'

theorem insertTag_advances (h : TxInv tagOf w.db tx) (hphase : tx.phase = .inserting name rest)
    (hstep : insertTag w id tx name rest = .ok tx') : Advances tagOf w id tx tx' := by
  obtain ⟨_, hfree, hstep⟩ := bind_eq_ok.mp hstep
  have hplain : tx.phase.isPlain = true := by rw [hphase]; rfl
  have hcreates : tx.writes.Creates := by
    have := h.knows
    rwa [hphase] at this
  split at hstep
  · exact Except.ok.inj hstep ▸ .finish h _
  · obtain rfl := Except.ok.inj hstep
    have hlocked := h.lock [.tag tx.call.orgId name]
    have hinserted : TxInv tagOf w.db ((tx.lock [.tag tx.call.orgId name]).write
        { tx.writes with inserted := tx.writes.inserted ++ [name] }) :=
      { hlocked with
        added := fun n hn => by
          obtain ⟨hins, hrest⟩ := hlocked.added n hn
          exact ⟨List.mem_append_left _ hins, hrest⟩
        knows := by
          show PhaseKnows _ _ tx.phase
          rw [hphase]
          exact hcreates }
    refine .locked (refuse_eq_ok.mp hfree) (hinserted.goto hplain rfl ⟨hcreates, ?_⟩) rfl
    exact List.mem_append_right _ List.mem_cons_self

theorem lockShare_advances (h : TxInv tagOf w.db tx) (hphase : tx.phase = .locking name rest)
    (hstep : lockShare w id tx name rest = .ok tx') : Advances tagOf w id tx tx' := by
  obtain ⟨_, hfree, hstep⟩ := bind_eq_ok.mp hstep
  have hplain : tx.phase.isPlain = true := by rw [hphase]; rfl
  have hknows : tx.writes.Creates ∧ name ∈ tx.writes.inserted := by
    have := h.knows
    rwa [hphase] at this
  have hlocked := h.lock [.setting tx.call.orgId]
  split at hstep
  · rename_i henabled
    obtain rfl := Except.ok.inj hstep
    obtain ⟨hshares, -⟩ := Bool.and_eq_true_iff.mp henabled
    exact .locked (refuse_eq_ok.mp hfree)
      (hlocked.goto hplain rfl ⟨hknows.1, List.mem_cons_self, hshares, hknows.2⟩) rfl
  · obtain rfl := Except.ok.inj hstep
    exact .locked (refuse_eq_ok.mp hfree) (hlocked.goto hplain rfl hknows.1) rfl

theorem insertDictionary_advances (h : TxInv tagOf w.db tx) (hphase : tx.phase = .creating name rest)
    (hstep : insertDictionary w id tx name rest = .ok tx') : Advances tagOf w id tx tx' := by
  obtain ⟨_, hfree, hstep⟩ := bind_eq_ok.mp hstep
  have hplain : tx.phase.isPlain = true := by rw [hphase]; rfl
  have hknows : tx.writes.Creates ∧ Sharing w.db tx name := by
    have := h.knows
    rwa [hphase] at this
  split at hstep
  · obtain rfl := Except.ok.inj hstep
    exact .quiet (h.goto hplain rfl hknows) rfl
  · rename_i hnone
    obtain rfl := Except.ok.inj hstep
    have hnone : tx.writes.dictionaryRow w.db name = none := by simpa using hnone
    have hlocked := h.lock [.dictionary name]
    have hinserted : TxInv tagOf w.db ((tx.lock [.dictionary name]).write
        { tx.writes with dictionary := tx.writes.dictionary ++ [(name, .insert)] }) :=
      { hlocked with
        dictionary := fun p hp => by
          rcases List.mem_append.mp hp with hp | hp
          · exact hlocked.dictionary p hp
          · rw [List.mem_singleton.mp hp]
            exact List.mem_cons_self
        counts := fun n => by
          -- a row of zeros is no row
          show countsOf (TagWrites.dictionaryRow { tx.writes with
            dictionary := tx.writes.dictionary ++ [(name, .insert)] } w.db n) = _
          rw [dictionaryRow_concat]
          refine Eq.trans ?_ (hlocked.counts n)
          show _ = countsOf (tx.writes.dictionaryRow w.db n)
          by_cases hn : n = name
          · rw [if_pos hn, hn, hnone]
            rfl
          · rw [if_neg hn]
        knows := by
          show PhaseKnows _ _ tx.phase
          rw [hphase]
          exact ⟨hknows.1, hknows.2.lock _⟩ }
    exact .locked (refuse_eq_ok.mp hfree) (hinserted.goto hplain rfl ⟨hknows.1, hknows.2.lock _⟩) rfl

theorem refetchDictionary_advances (h : TxInv tagOf w.db tx) (hphase : tx.phase = .refetching name rest)
    (hstep : refetchDictionary w id tx name rest = .ok tx') : Advances tagOf w id tx tx' := by
  obtain ⟨_, hfree, hstep⟩ := bind_eq_ok.mp hstep
  have hplain : tx.phase.isPlain = true := by rw [hphase]; rfl
  have hknows : tx.writes.Creates ∧ Sharing w.db tx name := by
    have := h.knows
    rwa [hphase] at this
  split at hstep
  · obtain rfl := Except.ok.inj hstep
    exact .locked (refuse_eq_ok.mp hfree)
      ((h.lock [.dictionary name]).goto hplain rfl ⟨hknows.1, hknows.2.lock _⟩) rfl
  · exact Except.ok.inj hstep ▸ .finish h _

theorem insertContributor_advances {row : TagDictionary} (h : TxInv tagOf w.db tx)
    (hphase : tx.phase = .contributing name row rest)
    (hstep : insertContributor w id tx name row rest = .ok tx') : Advances tagOf w id tx tx' := by
  obtain ⟨_, hfree, hstep⟩ := bind_eq_ok.mp hstep
  have hplain : tx.phase.isPlain = true := by rw [hphase]; rfl
  obtain ⟨hcreates, hsetting, hshares, hins⟩ : tx.writes.Creates ∧ Sharing w.db tx name := by
    have := h.knows
    rwa [hphase] at this
  split at hstep
  · obtain rfl := Except.ok.inj hstep
    exact .quiet (h.goto hplain rfl hcreates) rfl
  · rename_i hnew
    obtain rfl := Except.ok.inj hstep
    obtain ⟨hnew, hfirst⟩ := not_or.mp hnew
    refine .locked (refuse_eq_ok.mp hfree) ?_ rfl
    have hlocked := h.lock [.contributor name tx.call.orgId]
    have htaken : tx.taken = tx.writes.removed := taken_of_plain hplain
    exact
      { added := fun n hn => by
          rcases List.mem_append.mp hn with hn | hn
          · exact hlocked.added n hn
          · rw [List.mem_singleton.mp hn]
            exact ⟨hins, List.mem_cons_self, hnew, List.mem_cons_of_mem _ hsetting, hshares⟩
        addedOnce := by
          refine List.nodup_append.mpr ⟨h.addedOnce, List.nodup_singleton _, fun a ha b hb => ?_⟩
          rw [List.mem_singleton.mp hb]
          exact fun he => hfirst (he ▸ ha)
        taken := fun n hn => hlocked.taken n (htaken.symm ▸ hn)
        takenOnce := by
          have hnodup := h.takenOnce
          rwa [htaken] at hnodup
        dictionary := hlocked.dictionary
        counts := fun n => by
          -- the row added is not counted yet
          refine (h.counts n).trans (congrArg _ ?_)
          rw [TagTx.moved, owed_of_plain hplain]
          simp only [TagTx.moved, TagTx.owed, TagTx.goto, TagTx.write, List.count_append, List.count_singleton, beq_iff_eq]
          split
          · simp; omega
          · simp
        creates := .inr hcreates
        setting := settingKnows_of_none hcreates.2
        target := by simp [TagTx.target, TagTx.goto, TagTx.write, hcreates.1]
        knows := hcreates
        next := h.next
        snapshot := h.snapshot }

theorem countContributor_advances {row : TagDictionary} (h : TxInv tagOf w.db tx)
    (hphase : tx.phase = .counting name row rest)
    (hcurrent : ∀ now, tx.writes.dictionaryRow w.db name = some now → row = now)
    (hstep : countContributor w id tx name row rest = .ok tx') : Advances tagOf w id tx tx' := by
  obtain ⟨_, hfree, hstep⟩ := bind_eq_ok.mp hstep
  have hcreates : tx.writes.Creates := by
    have := h.knows
    rwa [hphase] at this
  split at hstep
  · rename_i hsome
    obtain rfl := Except.ok.inj hstep
    obtain ⟨now, hnow⟩ := Option.isSome_iff_exists.mp hsome
    obtain rfl := hcurrent now hnow
    refine .locked (refuse_eq_ok.mp hfree) ?_ rfl
    have hlocked := h.lock [.dictionary name]
    have htaken : tx.taken = tx.writes.removed := by rw [TagTx.taken, hphase]
    exact
      { added := hlocked.added
        addedOnce := h.addedOnce
        taken := fun n hn => hlocked.taken n (htaken.symm ▸ hn)
        takenOnce := by
          have hnodup := h.takenOnce
          rwa [htaken] at hnodup
        dictionary := fun p hp => by
          rcases List.mem_append.mp hp with hp | hp
          · exact hlocked.dictionary p hp
          · rw [List.mem_singleton.mp hp]
            exact List.mem_cons_self
        counts := fun n => by
          show countsOf (TagWrites.dictionaryRow { tx.writes with
            dictionary := tx.writes.dictionary ++ [(name, .set (row.shift 1))] } w.db n) = _
          have hcounts := h.counts n
          rw [TagTx.moved, TagTx.owed, hphase] at hcounts
          rw [dictionaryRow_concat]
          by_cases hn : n = name
          · -- what was owed is counted
            subst hn
            rw [hnow] at hcounts ⊢
            have hrow : row = _ := hcounts
            rw [if_pos rfl]
            show row.shift 1 = _
            rw [hrow, shift_shift]
            refine congrArg _ ?_
            simp only [TagTx.moved, TagTx.owed, TagTx.goto, TagTx.write, TagTx.lock, if_true]
            omega
          · rw [if_neg hn, hcounts]
            refine congrArg _ ?_
            simp [TagTx.moved, TagTx.owed, TagTx.goto, TagTx.write, TagTx.lock, Ne.symm hn]
        creates := .inr hcreates
        setting := settingKnows_of_none hcreates.2
        target := by simp [TagTx.target, TagTx.goto, TagTx.write, hcreates.1]
        knows := hcreates
        next := h.next
        snapshot := h.snapshot }
  · exact Except.ok.inj hstep ▸ .finish h _

/-- A transaction that has written a setting at most, and is to withdraw or to commit. -/
theorem TxInv.setting_only (h : TxInv tagOf db tx) {locks : List TagLock} {setting : Option SettingWrite} {phase : TagPhase}
    (hphase : phase = .ready ∨ ∃ names write, phase = .withdrawing names write ∧
      WithdrawalKnows { tx with locks, writes := { setting }, phase } names write)
    (hsetting : SettingKnows db { tx with locks, writes := { setting }, phase }) :
    TxInv tagOf db { tx with locks, writes := { setting }, phase } := by
  have hcounts : ∀ n, countsOf (TagWrites.dictionaryRow { setting } db n) = (countsOf (db.dictionary n)).shift 0 :=
    fun n => by rw [dictionaryRow_of_not_mem (fun p hp => by cases hp), shift_zero]
  rcases hphase with rfl | ⟨names, write, rfl, hknows⟩
  · exact
      { added := fun n hn => by cases hn
        addedOnce := .nil
        taken := fun n hn => by cases hn
        takenOnce := .nil
        dictionary := fun p hp => by cases hp
        counts := hcounts
        creates := .inl rfl
        setting := hsetting
        target := fun tag htag => by cases htag
        knows := trivial
        next := h.next
        snapshot := h.snapshot }
  · exact
      { added := fun n hn => by cases hn
        addedOnce := .nil
        taken := fun n hn => by cases hn
        takenOnce := .nil
        dictionary := fun p hp => by cases hp
        counts := hcounts
        creates := .inl rfl
        setting := hsetting
        target := fun tag htag => by cases htag
        knows := ⟨rfl, rfl, rfl, hknows⟩
        next := h.next
        snapshot := h.snapshot }

/-- Nothing written, and a withdrawal to come. -/
theorem TxInv.withdraw (h : TxInv tagOf db tx) (hempty : tx.writes = {}) {names : Option (List String)}
    {write : Option TagWrite} (hknows : WithdrawalKnows tx names write) :
    TxInv tagOf db (tx.goto (.withdrawing names write)) := by
  have hquiet : tx.goto (.withdrawing names write) =
      { tx with writes := { setting := none }, phase := .withdrawing names write } := by
    rw [← hempty]
    rfl
  rw [hquiet]
  refine h.setting_only (.inr ⟨names, write, rfl, ?_⟩) (settingKnows_of_none rfl)
  cases write with
  | some v => exact ⟨rfl, hknows.2⟩
  | none => exact hknows

theorem writeSetting_advances {write : SettingWrite} (h : TxInv tagOf w.db tx) (hphase : tx.phase = .writingSetting write)
    (hstep : writeSetting w id tx write = .ok tx') : Advances tagOf w id tx tx' := by
  have hempty : tx.writes = {} := by
    have := h.knows
    rwa [hphase] at this
  let onward : TagPhase := if write.stops then .withdrawing none none else .ready
  have hwritten : TxInv tagOf w.db
      (((tx.lock [.setting tx.call.orgId]).write { tx.writes with setting := some write }).goto onward) := by
    rw [hempty]
    by_cases hstops : write.stops = true
    · refine h.setting_only (.inr ⟨none, none, if_pos hstops, rfl⟩) fun sw _ => ?_
      exact ⟨List.mem_cons_self, fun _ => .inl ⟨none, none, if_pos hstops⟩⟩
    · refine h.setting_only (.inl (if_neg hstops)) fun sw hsw => ?_
      obtain rfl := Option.some.inj hsw
      exact ⟨List.mem_cons_self, fun hs => absurd hs hstops⟩
  have hplain : tx.phase.isPlain = true := by rw [hphase]; rfl
  have hunwritten : TxInv tagOf w.db (tx.goto onward) := by
    by_cases hstops : write.stops = true
    · simp only [onward, if_pos hstops]
      exact h.withdraw hempty rfl
    · simp only [onward, if_neg hstops]
      exact h.goto hplain rfl trivial
  unfold writeSetting at hstep
  cases write with
  | insert value =>
    obtain ⟨_, hfree, hstep⟩ := bind_eq_ok.mp hstep
    split at hstep
    · exact Except.ok.inj hstep ▸ .finish h _
    · exact Except.ok.inj hstep ▸ .locked (refuse_eq_ok.mp hfree) hwritten rfl
  | update row value =>
    dsimp only at hstep
    split at hstep
    · obtain ⟨_, hfree, hstep⟩ := bind_eq_ok.mp hstep
      exact Except.ok.inj hstep ▸ .locked (refuse_eq_ok.mp hfree) hwritten rfl
    · exact Except.ok.inj hstep ▸ .finish h _
  | delete row =>
    dsimp only at hstep
    split at hstep
    · obtain ⟨_, hfree, hstep⟩ := bind_eq_ok.mp hstep
      exact Except.ok.inj hstep ▸ .locked (refuse_eq_ok.mp hfree) hwritten rfl
    · exact Except.ok.inj hstep ▸ .quiet hunwritten rfl

theorem mem_contributionsOf {orgId : Nat} {names : Option (List String)} {n : String} :
    n ∈ contributionsOf db orgId names ↔
      { dictionaryTag := n, contributorOrgId := orgId } ∈ db.contributors ∧ ∀ ns, names = some ns → n ∈ ns := by
  simp only [contributionsOf, List.mem_map, List.mem_filter, Bool.and_eq_true, beq_iff_eq, Option.all_eq_true]
  constructor
  · rintro ⟨⟨tag, org⟩, ⟨hc, rfl, hall⟩, rfl⟩
    exact ⟨hc, fun ns hns => by simpa using hall ns hns⟩
  · rintro ⟨hc, hall⟩
    exact ⟨_, ⟨hc, rfl, fun ns hns => by simpa using hall ns hns⟩, rfl⟩

theorem nodup_contributionsOf (honce : db.contributors.Nodup) (orgId : Nat) (names : Option (List String)) :
    (contributionsOf db orgId names).Nodup := by
  refine (honce.filter _).map_on ?_
  intro c hc d hd hsame
  have horg : ∀ e ∈ db.contributors.filter (fun c =>
      c.contributorOrgId == orgId && names.all (fun ns => decide (c.dictionaryTag ∈ ns))), e.contributorOrgId = orgId := by
    intro e he
    have := (List.mem_filter.mp he).2
    simp only [Bool.and_eq_true, beq_iff_eq] at this
    exact this.1
  cases c
  cases d
  simp_all

theorem selectContributions_advances {names : Option (List String)} {write : Option TagWrite} (hsound : TagsSound tagOf w.db)
    (h : TxInv tagOf w.db tx) (hphase : tx.phase = .withdrawing names write)
    (hstep : selectContributions w id tx names write = .ok tx') : Advances tagOf w id tx tx' := by
  obtain ⟨_, hfree, hstep⟩ := bind_eq_ok.mp hstep
  obtain rfl := Except.ok.inj hstep
  obtain ⟨hadded, hremoved, htag, hknows⟩ : tx.writes.added = [] ∧ tx.writes.removed = [] ∧ tx.writes.tag = none ∧
      WithdrawalKnows tx names write := by
    have := h.knows
    rwa [hphase] at this
  have hfree := refuse_eq_ok.mp hfree
  generalize hrows : contributionsOf w.db tx.call.orgId names = rows at hfree ⊢
  have hmem : ∀ n, n ∈ rows ↔ { dictionaryTag := n, contributorOrgId := tx.call.orgId } ∈ w.db.contributors ∧
      ∀ ns, names = some ns → n ∈ ns := fun n => by rw [← hrows, mem_contributionsOf]
  let locks := rows.map (fun name => TagLock.contributor name tx.call.orgId) ++
    if names.isSome then rows.map TagLock.dictionary else []
  have hlocked := h.lock locks
  have htaken : ((tx.lock locks).goto (.subtracting rows rows write)).taken = rows := by
    show tx.writes.removed ++ rows = rows
    rw [hremoved, List.nil_append]
  refine ⟨?_, fun k hk => ?_⟩
  · exact
      { added := hlocked.added
        addedOnce := h.addedOnce
        taken := fun n hn => by
          rw [htaken] at hn
          refine ⟨List.mem_append_left _ (List.mem_append_left _ ?_), ((hmem n).mp hn).1⟩
          exact List.mem_map.mpr ⟨n, hn, rfl⟩
        takenOnce := by
          rw [htaken, ← hrows]
          exact nodup_contributionsOf hsound.once _ _
        dictionary := hlocked.dictionary
        counts := fun n => by
          refine (h.counts n).trans (congrArg _ ?_)
          rw [TagTx.moved, TagTx.moved, TagTx.owed, TagTx.owed, hphase]
          simp [TagTx.goto, TagTx.lock]
        creates := .inl hadded
        setting := fun sw hsw => by
          refine ⟨(hlocked.setting sw hsw).1, fun _ => .inr fun c hc horg => ?_⟩
          rw [htaken]
          refine (hmem _).mpr ⟨horg ▸ hc, fun ns hns => ?_⟩
          -- a setting is written before a withdrawal of all names only
          cases write with
          | some v =>
            have hsw : tx.writes.setting = some sw := hsw
            rw [hknows.1] at hsw
            cases hsw
          | none =>
            rw [hknows] at hns
            cases hns
        target := fun tag htag' => by
          obtain ⟨v, rfl, rfl⟩ := Option.map_eq_some_iff.mp htag'
          obtain ⟨-, s, hs, horg, hnames⟩ := hknows
          refine ⟨(Table.get?_lt_next hs).trans_le h.next, fun c hc hof => ?_⟩
          -- it has the name that the snapshot shows
          obtain rfl := h.snapshot c hc s (hof.symm ▸ hs)
          refine ⟨horg, ?_⟩
          rw [htaken]
          refine (hmem _).mpr ⟨horg ▸ hc, fun ns hns => ?_⟩
          rw [hnames] at hns
          rw [← Option.some.inj hns]
          exact List.mem_cons_self
        knows := ⟨hadded, hremoved, htag, List.Subset.refl _⟩
        next := h.next
        snapshot := h.snapshot }
  · rcases List.mem_append.mp hk with hk | hk
    · refine .inr fun hheld => hfree (hheld.mono fun k' he => ?_)
      subst he
      rcases List.mem_append.mp hk with hk | hk
      · obtain ⟨n, hn, rfl⟩ := List.mem_map.mp hk
        obtain ⟨-, hall⟩ := (hmem n).mp hn
        simpa [withdrawalLocks, Option.all_eq_true] using hall
      · split at hk
        · rename_i hsome
          obtain ⟨n, hn, rfl⟩ := List.mem_map.mp hk
          simpa [withdrawalLocks] using ⟨hsome, hn⟩
        · cases hk
    · exact .inl hk

/-- A name that has a contribution has a row. -/
theorem TagsSound.row_isSome (h : TagsSound tagOf db) {c : TagDictionaryContributor} (hc : c ∈ db.contributors) :
    (db.dictionary c.dictionaryTag).isSome = true := by
  have hpos : 0 < contributorCount db c.dictionaryTag := List.countP_pos_iff.mpr ⟨c, hc, by simp⟩
  rcases hrow : db.dictionary c.dictionaryTag with _ | row
  · have hcounts := congrArg TagDictionary.contributorOrgCount (h.counts c.dictionaryTag)
    rw [hrow] at hcounts
    simp only [countsOf, TagDictionary.shift, TagDictionary.zero, Option.getD_none] at hcounts
    omega
  · rfl

theorem withdrawNext_advances {rows : List String} {write : Option TagWrite} (hsound : TagsSound tagOf w.db)
    (h : TxInv tagOf w.db tx) (hphase : tx.phase = .subtracting rows rest write)
    (hstep : withdrawNext w id tx rows rest write = .ok tx') : Advances tagOf w id tx tx' := by
  obtain ⟨hadded, hremoved, htag, hsub⟩ : tx.writes.added = [] ∧ tx.writes.removed = [] ∧ tx.writes.tag = none ∧
      rest ⊆ rows := by
    have := h.knows
    rwa [hphase] at this
  have htaken : tx.taken = tx.writes.removed ++ rows := by rw [TagTx.taken, hphase]
  have htarget : tx.target = write.map TagWrite.row := by rw [TagTx.target, hphase]
  have hcovers : ∀ sw, tx.writes.setting = some sw → sw.stops = true → CoversOrg w.db tx := by
    intro sw hsw hstops
    rcases (h.setting sw hsw).2 hstops with ⟨names, write, hwas⟩ | hcovers
    · rw [hphase] at hwas
      cases hwas
    · exact hcovers
  have howed : ∀ n, tx.owed n = (rows.count n : Int) - rest.count n := fun n => by rw [TagTx.owed, hphase]
  cases rest with
  | cons name rest =>
    obtain ⟨_, hfree, hstep⟩ := bind_eq_ok.mp hstep
    obtain rfl := Except.ok.inj hstep
    refine .locked (refuse_eq_ok.mp hfree) ?_ rfl
    have hlocked := h.lock [.dictionary name]
    exact
      { added := hlocked.added
        addedOnce := h.addedOnce
        taken := fun n hn => hlocked.taken n (htaken.symm ▸ hn)
        takenOnce := by
          have hnodup := h.takenOnce
          rwa [htaken] at hnodup
        dictionary := fun p hp => by
          rcases List.mem_append.mp hp with hp | hp
          · exact hlocked.dictionary p hp
          · rw [List.mem_singleton.mp hp]
            exact List.mem_cons_self
        counts := fun n => by
          show countsOf (TagWrites.dictionaryRow { tx.writes with
            dictionary := tx.writes.dictionary ++ [(name, .subtract)] } w.db n) = _
          have hcounts := h.counts n
          rw [TagTx.moved, howed] at hcounts
          rw [dictionaryRow_concat]
          by_cases hn : n = name
          · subst hn
            obtain ⟨row, hrow⟩ : ∃ row, tx.writes.dictionaryRow w.db n = some row := by
              refine Option.isSome_iff_exists.mp (dictionaryRow_isSome ?_)
              have hmem : n ∈ tx.taken := htaken ▸ List.mem_append_right _ (hsub List.mem_cons_self)
              exact hsound.row_isSome (h.taken n hmem).2
            rw [hrow] at hcounts ⊢
            have hrow : row = _ := hcounts
            rw [if_pos rfl]
            show row.shift (-1) = _
            rw [hrow, shift_shift]
            refine congrArg _ ?_
            simp only [TagTx.moved, TagTx.owed, TagTx.goto, TagTx.write, TagTx.lock, List.count_cons_self]
            omega
          · rw [if_neg hn, hcounts]
            refine congrArg _ ?_
            simp only [TagTx.moved, TagTx.owed, TagTx.goto, TagTx.write, TagTx.lock,
              List.count_cons_of_ne (Ne.symm hn)]
        creates := .inl hadded
        setting := fun sw hsw => by
          refine ⟨(hlocked.setting sw hsw).1, fun hstops => .inr fun c hc horg => ?_⟩
          have hmem := hcovers sw hsw hstops c hc horg
          rwa [htaken] at hmem
        target := fun tag ht => by
          obtain ⟨hlt, hcov⟩ := h.target tag (htarget.trans ht)
          refine ⟨hlt, fun c hc hof => ⟨(hcov c hc hof).1, ?_⟩⟩
          have hmem := (hcov c hc hof).2
          rwa [htaken] at hmem
        knows := ⟨hadded, hremoved, htag, fun n hn => hsub (List.mem_cons_of_mem _ hn)⟩
        next := h.next
        snapshot := h.snapshot }
  | nil =>
    obtain rfl := Except.ok.inj hstep
    refine .quiet ?_ rfl
    let after : TagTx :=
      (tx.write { tx.writes with removed := tx.writes.removed ++ rows }).goto (afterWithdrawal write)
    have htaken' : after.taken = tx.taken := by
      rw [htaken]
      cases write <;> rfl
    have htarget' : after.target = tx.target := by
      rw [htarget]
      cases write with
      | some v => rfl
      | none =>
        show tx.writes.tag.map TagWrite.row = none
        rw [htag]
        rfl
    have hmoved : ∀ n, after.moved n = tx.moved n := by
      intro n
      have howed' : after.owed n = 0 := by cases write <;> rfl
      rw [TagTx.moved, TagTx.moved, howed', howed]
      show (tx.writes.added.count n : Int) - (tx.writes.removed ++ rows).count n - 0 = _
      rw [List.count_append]
      simp
      omega
    show TxInv tagOf w.db after
    exact
      { added := h.added
        addedOnce := h.addedOnce
        taken := by rw [htaken']; exact h.taken
        takenOnce := by rw [htaken']; exact h.takenOnce
        dictionary := h.dictionary
        counts := fun n => by rw [hmoved]; exact h.counts n
        creates := .inl hadded
        setting := fun sw hsw => by
          refine ⟨(h.setting sw hsw).1, fun hstops => .inr fun c hc horg => ?_⟩
          rw [htaken']
          exact hcovers sw hsw hstops c hc horg
        target := fun tag ht => by
          rw [htarget'] at ht
          obtain ⟨hlt, hcov⟩ := h.target tag ht
          refine ⟨hlt, fun c hc hof => ?_⟩
          rw [htaken']
          exact hcov c hc hof
        knows := by
          cases write with
          | some v => exact ⟨hadded, htag⟩
          | none => trivial
        next := h.next
        snapshot := h.snapshot }

theorem flushTag_advances {write : TagWrite} (h : TxInv tagOf w.db tx) (hphase : tx.phase = .flushing write)
    (hstep : flushTag w id tx write = .ok tx') : Advances tagOf w id tx tx' := by
  obtain ⟨hadded, htag⟩ : tx.writes.added = [] ∧ tx.writes.tag = none := by
    have := h.knows
    rwa [hphase] at this
  have htaken : tx.taken = tx.writes.removed := by rw [TagTx.taken, hphase]
  have htarget : tx.target = some write.row := by rw [TagTx.target, hphase]
  have howed : ∀ n, tx.owed n = 0 := fun n => by rw [TagTx.owed, hphase]
  -- the tag written is the one whose contribution is withdrawn
  have hready : ∀ tag, (∀ v, tag = some v → v = write) →
      TxInv tagOf w.db ((tx.write { tx.writes with tag }).goto .ready) := by
    intro tag hwrite
    exact
      { added := h.added
        addedOnce := h.addedOnce
        taken := fun n hn => h.taken n (htaken.symm ▸ hn)
        takenOnce := by
          have hnodup := h.takenOnce
          rwa [htaken] at hnodup
        dictionary := h.dictionary
        counts := fun n => by
          have hcounts := h.counts n
          rw [TagTx.moved, howed] at hcounts
          exact hcounts
        creates := .inl hadded
        setting := fun sw hsw => by
          refine ⟨(h.setting sw hsw).1, fun hstops => .inr fun c hc horg => ?_⟩
          rcases (h.setting sw hsw).2 hstops with ⟨names, write, hwas⟩ | hcovers
          · rw [hphase] at hwas
            cases hwas
          · have hmem := hcovers c hc horg
            rwa [htaken] at hmem
        target := fun row hrow => by
          obtain ⟨v, hv, rfl⟩ := Option.map_eq_some_iff.mp hrow
          obtain rfl := hwrite v hv
          obtain ⟨hlt, hcov⟩ := h.target _ htarget
          refine ⟨hlt, fun c hc hof => ⟨(hcov c hc hof).1, ?_⟩⟩
          have hmem := (hcov c hc hof).2
          rwa [htaken] at hmem
        knows := trivial
        next := h.next
        snapshot := h.snapshot }
  unfold flushTag at hstep
  split at hstep
  · rename_i tag row name htag'
    obtain ⟨_, hfree, hstep⟩ := bind_eq_ok.mp hstep
    split at hstep
    · exact Except.ok.inj hstep ▸ .finish h _
    · obtain rfl := Except.ok.inj hstep
      refine ⟨(hready _ fun v hv => (Option.some.inj hv).symm).lock _, fun k hk => ?_⟩
      rcases List.mem_append.mp hk with hk | hk
      · refine .inr fun hheld => refuse_eq_ok.mp hfree (hheld.mono fun k' he => ?_)
        subst he
        simpa using hk
      · exact .inl hk
  · obtain ⟨_, hfree, hstep⟩ := bind_eq_ok.mp hstep
    obtain rfl := Except.ok.inj hstep
    exact .locked (refuse_eq_ok.mp hfree) ((hready _ fun v hv => (Option.some.inj hv).symm).lock _) rfl
  · exact Except.ok.inj hstep ▸ .finish h _
  · obtain rfl := Except.ok.inj hstep
    have hquiet : tx.goto .ready = (tx.write { tx.writes with tag := none }).goto .ready := by rw [← htag]; rfl
    rw [hquiet]
    exact .quiet (hready none fun v hv => by cases hv) rfl

/-- The checks a call begins with lead to its first insert, its setting, or its withdrawal. -/
theorem beginTag_knows (db : TagDb) {lower : String → String} {phase : TagPhase} (h : beginTag lower tx.snapshot tx.call = .ok phase)
    (hempty : tx.writes = {}) :
    (phase.isPlain = true ∧ PhaseKnows db tx phase) ∨
      ∃ names write, phase = .withdrawing names write ∧ WithdrawalKnows tx names write := by
  have hcreates : tx.writes.Creates := by rw [hempty]; exact ⟨rfl, rfl⟩
  unfold beginTag at h
  split at h
  · obtain ⟨name, -, h⟩ := bind_eq_ok.mp h
    obtain ⟨_, -, h⟩ := bind_eq_ok.mp h
    exact Except.ok.inj h ▸ .inl ⟨rfl, hcreates⟩
  · obtain ⟨_, -, h⟩ := bind_eq_ok.mp h
    obtain ⟨names, -, h⟩ := bind_eq_ok.mp h
    obtain ⟨_, -, h⟩ := bind_eq_ok.mp h
    exact Except.ok.inj h ▸ .inl ⟨rfl, hcreates⟩
  · rename_i orgId tagId newName hcall
    obtain ⟨name, -, h⟩ := bind_eq_ok.mp h
    obtain ⟨tag, htag, h⟩ := bind_eq_ok.mp h
    obtain ⟨hget, horg⟩ := Option.filter_eq_some_iff.mp (found_eq_ok.mp htag)
    split at h
    · exact Except.ok.inj h ▸ .inl ⟨rfl, trivial⟩
    · obtain ⟨_, -, h⟩ := bind_eq_ok.mp h
      refine Except.ok.inj h ▸ .inr ⟨_, _, rfl, by rw [hempty], tag, hget, ?_, rfl⟩
      rw [hcall]
      exact beq_iff_eq.mp horg
  · rename_i orgId tagId hcall
    obtain ⟨tag, htag, h⟩ := bind_eq_ok.mp h
    obtain ⟨hget, horg⟩ := Option.filter_eq_some_iff.mp (found_eq_ok.mp htag)
    refine Except.ok.inj h ▸ .inr ⟨_, _, rfl, by rw [hempty], tag, hget, ?_, rfl⟩
    rw [hcall]
    exact beq_iff_eq.mp horg
  · split at h
    · split at h
      · split at h
        · exact Except.ok.inj h ▸ .inl ⟨rfl, trivial⟩
        · exact Except.ok.inj h ▸ .inr ⟨_, _, rfl, rfl⟩
      · exact Except.ok.inj h ▸ .inl ⟨rfl, hempty⟩
    · exact Except.ok.inj h ▸ .inl ⟨rfl, hempty⟩
  · split at h
    · exact Except.ok.inj h ▸ .inl ⟨rfl, hempty⟩
    · cases h

/-- **A statement keeps what its transaction knows**, if an increment writes over the value
it read. -/
theorem nextStatement_advances {lower : String → String} (hsound : TagsSound tagOf w.db) (h : TxInv tagOf w.db tx)
    (hcurrent : tx.countIsCurrent w.db = true)
    (hstep : nextStatement lower w id tx = .ok tx') : Advances tagOf w id tx tx' := by
  have hknows := h.knows
  unfold nextStatement at hstep
  dsimp only at hstep
  split at hstep
  · rename_i hphase
    rw [hphase] at hknows
    split at hstep
    · rename_i phase hbegin
      obtain rfl := Except.ok.inj hstep
      refine .quiet ?_ rfl
      rcases beginTag_knows w.db hbegin hknows with ⟨hplain, hnew⟩ | ⟨names, write, rfl, hnew⟩
      · exact h.goto (by rw [hphase]; rfl) hplain hnew
      · exact h.withdraw hknows hnew
    · exact Except.ok.inj hstep ▸ .finish h _
  · rename_i hphase
    exact Except.ok.inj hstep ▸ .quiet (h.goto (by rw [hphase]; rfl) rfl trivial) rfl
  · rename_i name rest hphase
    rw [hphase] at hknows
    obtain rfl := Except.ok.inj hstep
    refine .quiet ?_ rfl
    split
    · exact h.goto (by rw [hphase]; rfl) rfl hknows
    · exact h.goto (by rw [hphase]; rfl) rfl hknows
  · exact insertTag_advances h ‹_› hstep
  · rename_i hphase
    rw [hphase] at hknows
    obtain rfl := Except.ok.inj hstep
    refine .quiet ?_ rfl
    split
    · exact h.goto (by rw [hphase]; rfl) rfl hknows
    · exact h.goto (by rw [hphase]; rfl) rfl hknows.1
  · exact lockShare_advances h ‹_› hstep
  · rename_i hphase
    rw [hphase] at hknows
    obtain rfl := Except.ok.inj hstep
    refine .quiet ?_ rfl
    split
    · exact h.goto (by rw [hphase]; rfl) rfl hknows
    · exact h.goto (by rw [hphase]; rfl) rfl hknows
  · exact insertDictionary_advances h ‹_› hstep
  · exact refetchDictionary_advances h ‹_› hstep
  · rename_i hphase
    rw [hphase] at hknows
    obtain rfl := Except.ok.inj hstep
    refine .quiet ?_ rfl
    split
    · exact h.goto (by rw [hphase]; rfl) rfl hknows.1
    · exact h.goto (by rw [hphase]; rfl) rfl hknows
  · exact insertContributor_advances h ‹_› hstep
  · rename_i hphase
    simp only [TagTx.countIsCurrent, hphase] at hcurrent
    refine countContributor_advances h hphase (fun now hnow => ?_) hstep
    rw [hnow] at hcurrent
    exact (beq_iff_eq.mp hcurrent).symm
  · exact writeSetting_advances h ‹_› hstep
  · exact selectContributions_advances hsound h ‹_› hstep
  · exact withdrawNext_advances hsound h ‹_› hstep
  · exact flushTag_advances h ‹_› hstep
  · cases hstep
  · cases hstep

end Statements

/-! ## A commit -/

section Commits

variable {tagOf : String → Nat → Nat} {tx : TagTx} {orgId : Nat}

theorem mem_applyContributors {contributors : List TagDictionaryContributor} {c : TagDictionaryContributor} :
    c ∈ ws.applyContributors orgId contributors ↔
      (c ∈ contributors ∧ ¬ (c.contributorOrgId = orgId ∧ c.dictionaryTag ∈ ws.removed)) ∨
        (c.contributorOrgId = orgId ∧ c.dictionaryTag ∈ ws.added) := by
  rw [TagWrites.applyContributors, List.mem_append, List.mem_filter, List.mem_map]
  refine or_congr (and_congr_right fun _ => by simp [imp_iff_not_or]) ?_
  constructor
  · rintro ⟨n, hn, rfl⟩
    exact ⟨rfl, hn⟩
  · rintro ⟨rfl, hn⟩
    exact ⟨_, hn, rfl⟩

/-- The rows of a name that a commit adds, less those it removes. -/
theorem countP_applyContributors {contributors : List TagDictionaryContributor} (honce : contributors.Nodup)
    (hremoved : ∀ n ∈ ws.removed, { dictionaryTag := n, contributorOrgId := orgId } ∈ contributors)
    (hnodup : ws.removed.Nodup) (n : String) :
    ((ws.applyContributors orgId contributors).countP (fun c => c.dictionaryTag == n) : Int) =
      contributors.countP (fun c => c.dictionaryTag == n) + ((ws.added.count n : Int) - ws.removed.count n) := by
  let gone : TagDictionaryContributor → Bool := fun c => c.contributorOrgId == orgId && decide (c.dictionaryTag ∈ ws.removed)
  have hadded : (ws.added.map (fun dictionaryTag => ({ dictionaryTag, contributorOrgId := orgId } :
      TagDictionaryContributor))).countP (fun c => c.dictionaryTag == n) = ws.added.count n := by
    rw [List.countP_map]
    rfl
  have hgone : (contributors.filter gone).countP (fun c => c.dictionaryTag == n) = ws.removed.count n := by
    by_cases hn : n ∈ ws.removed
    · rw [List.count_eq_one_of_mem hnodup hn, ← List.count_eq_one_of_mem honce (hremoved n hn), List.count,
        List.countP_filter]
      refine List.countP_congr fun c _ => ?_
      cases c
      simp only [gone, Bool.and_eq_true, beq_iff_eq, decide_eq_true_eq, TagDictionaryContributor.mk.injEq]
      constructor
      · rintro ⟨rfl, rfl, -⟩
        exact ⟨rfl, rfl⟩
      · rintro ⟨rfl, rfl⟩
        exact ⟨rfl, rfl, hn⟩
    · rw [List.count_eq_zero_of_not_mem hn]
      refine List.countP_eq_zero.mpr fun c hc htag => hn ?_
      obtain ⟨-, hgone⟩ := List.mem_filter.mp hc
      simp only [gone, Bool.and_eq_true, decide_eq_true_eq] at hgone
      rw [← beq_iff_eq.mp htag]
      exact hgone.2
  have hsplit : contributors.countP (fun c => c.dictionaryTag == n) =
      (contributors.filter gone).countP (fun c => c.dictionaryTag == n) +
        (contributors.filter (fun c => !gone c)).countP (fun c => c.dictionaryTag == n) := by
    simp only [List.countP_eq_length_filter, List.filter_filter]
    rw [List.length_eq_length_filter_add (fun c => gone c) (l := contributors.filter _), List.filter_filter, List.filter_filter]
    simp only [Bool.and_comm]
  have happly : ws.applyContributors orgId contributors = contributors.filter (fun c => !gone c) ++
      ws.added.map (fun dictionaryTag => { dictionaryTag, contributorOrgId := orgId }) := rfl
  rw [happly, List.countP_append, hadded, hsplit, hgone]
  push_cast
  omega

theorem nodup_applyContributors {contributors : List TagDictionaryContributor} (honce : contributors.Nodup)
    (hadded : ∀ n ∈ ws.added, { dictionaryTag := n, contributorOrgId := orgId } ∉ contributors)
    (hnodup : ws.added.Nodup) : (ws.applyContributors orgId contributors).Nodup := by
  refine List.nodup_append.mpr ⟨honce.filter _, hnodup.map fun m n h => ?_, fun c hc d hd => ?_⟩
  · exact (TagDictionaryContributor.mk.inj h).1
  · obtain ⟨n, hn, rfl⟩ := List.mem_map.mp hd
    rintro rfl
    exact hadded n hn (List.mem_filter.mp hc).1

/-- The tag of each contribution, after a commit: an added row came with an inserted tag. -/
def TagWrites.origins (ws : TagWrites) (orgId : Nat) (db : TagDb) (old : String → Nat → Nat) : String → Nat → Nat :=
  fun n org => if org = orgId ∧ n ∈ ws.added then db.tags.next + ws.inserted.idxOf n else old n org

theorem applyTags_of_some {i : Nat} {tag : Tag} (h : db.tags.get? i = some tag)
    (hne : ws.tag.map TagWrite.row ≠ some i) : (ws.applyTags orgId db.tags).get? i = some tag := by
  have hold := Table.get?_insertAll_of_some (fun nameNormalized => ({ orgId, nameNormalized } : Tag)) ws.inserted h
  unfold TagWrites.applyTags
  dsimp only
  split
  · rename_i row name hwrite
    rw [hwrite] at hne
    have hrow : i ≠ row := fun he => hne (congrArg some he.symm)
    rw [Table.get?_modify_of_ne hrow]
    exact hold
  · rename_i row hwrite
    rw [hwrite] at hne
    have hrow : i ≠ row := fun he => hne (congrArg some he.symm)
    rw [Table.get?_remove, if_neg (by simpa using hrow)]
    exact hold
  · exact hold

theorem next_le_applyTags (ws : TagWrites) (orgId : Nat) (tags : Table Tag) : tags.next ≤ (ws.applyTags orgId tags).next := by
  have hnext := Table.next_insertAll (fun nameNormalized => ({ orgId, nameNormalized } : Tag)) ws.inserted tags
  unfold TagWrites.applyTags
  dsimp only
  split
  · rw [Table.next_modify]
    omega
  · rw [Table.next_remove]
    omega
  · omega

/-- The row of an inserted tag. -/
theorem applyTags_inserted {n : String} (hn : n ∈ ws.inserted) (htag : ws.tag = none) :
    (ws.applyTags orgId db.tags).get? (db.tags.next + ws.inserted.idxOf n) = some { orgId, nameNormalized := n } := by
  have hget : ws.inserted[ws.inserted.idxOf n]? = some n := List.getElem?_idxOf hn
  rw [TagWrites.applyTags, htag]
  exact (Table.get?_insertAll _ ws.inserted db.tags _).trans (by rw [hget]; rfl)

/-- **A commit keeps the tables in agreement.** -/
theorem TagsSound.commit (hsound : TagsSound tagOf db) (h : TxInv tagOf db tx) (hready : tx.phase = .ready) :
    TagsSound (tx.writes.origins tx.call.orgId db tagOf) (tx.writes.apply tx.call.orgId db) := by
  have hplain : tx.phase.isPlain = true := by rw [hready]; rfl
  have htaken : tx.taken = tx.writes.removed := taken_of_plain hplain
  have htarget : tx.target = tx.writes.tag.map TagWrite.row := target_of_plain hplain
  have hremoved := h.taken
  have hnodup := h.takenOnce
  rw [htaken] at hremoved hnodup
  have hcreates : ∀ c : TagDictionaryContributor, c.dictionaryTag ∈ tx.writes.added → tx.writes.Creates := by
    intro c hc
    rcases h.creates with hnone | hcreates
    · rw [hnone] at hc
      cases hc
    · exact hcreates
  refine ⟨fun n => ?_, ?_, fun c hc => ?_, fun c hc => ?_⟩
  · -- counts and contributors move together
    have hcount := countP_applyContributors hsound.once (fun n hn => (hremoved n hn).2) hnodup n
    have hmoved : tx.moved n = (tx.writes.added.count n : Int) - tx.writes.removed.count n := by
      rw [TagTx.moved, owed_of_plain hplain, sub_zero]
    show countsOf (tx.writes.dictionaryRow db n) = _
    rw [h.counts n, hsound.counts n, shift_shift, hmoved]
    exact congrArg _ hcount.symm
  · exact nodup_applyContributors hsound.once (fun n hn => (h.added n hn).2.2.1) h.addedOnce
  · show isShareTagDataEnabled (tx.writes.apply tx.call.orgId db) c.contributorOrgId = true
    unfold isShareTagDataEnabled TagWrites.apply
    dsimp only
    rcases mem_applyContributors.mp hc with ⟨hold, hkept⟩ | ⟨horg, hadded⟩
    · have hshares := hsound.shares c hold
      split
      · rename_i horg
        rw [horg] at hshares
        unfold TagWrites.applySetting
        -- a setting that stops sharing would have taken the row
        have hgoes : ∀ sw, tx.writes.setting = some sw → sw.stops ≠ true := by
          intro sw hsw hstops
          rcases (h.setting sw hsw).2 hstops with ⟨names, write, hwas⟩ | hcovers
          · rw [hready] at hwas
            cases hwas
          · have hmem := hcovers c hold horg
            rw [htaken] at hmem
            exact hkept ⟨horg, hmem⟩
        split
        · rename_i value hsw
          have hgo : (!shareTagDataValueEnabled (some value)) ≠ true := hgoes _ hsw
          simpa using hgo
        · rename_i row value hsw
          have hgo : (!shareTagDataValueEnabled (some value)) ≠ true := hgoes _ hsw
          simpa using hgo
        · exact absurd rfl (hgoes _ ‹_›)
        · exact hshares
      · exact hshares
    · rw [if_pos horg, TagWrites.applySetting, (hcreates c hadded).2]
      exact (h.added _ hadded).2.2.2.2
  · rcases mem_applyContributors.mp hc with ⟨hold, hkept⟩ | ⟨horg, hadded⟩
    · have hne : ¬ (c.contributorOrgId = tx.call.orgId ∧ c.dictionaryTag ∈ tx.writes.added) := by
        rintro ⟨horg, hadded⟩
        exact (h.added _ hadded).2.2.1 (horg ▸ hold)
      rw [TagWrites.origins, if_neg hne]
      refine applyTags_of_some (hsound.tagged c hold) fun hrow => hkept ?_
      obtain ⟨-, hcovers⟩ := h.target _ (htarget.trans hrow)
      have hmem := hcovers c hold rfl
      rwa [htaken] at hmem
    · rw [TagWrites.origins, if_pos ⟨horg, hadded⟩, horg]
      exact applyTags_inserted (h.added _ hadded).1 (hcreates c hadded).1

/-- What a commit leaves as it was: the rows it has not locked. -/
structure TagsKept (locks : List TagLock) (tagOf tagOf' : String → Nat → Nat) (db db' : TagDb) : Prop where
  dictionary : ∀ n, .dictionary n ∉ locks → db'.dictionary n = db.dictionary n
  contributors : ∀ n org, .contributor n org ∉ locks →
    ({ dictionaryTag := n, contributorOrgId := org } ∈ db'.contributors ↔
      { dictionaryTag := n, contributorOrgId := org } ∈ db.contributors)
  settings : ∀ org, .setting org ∉ locks → db'.settings org = db.settings org
  /-- A new contribution is of an org whose setting is locked, and comes with a new tag. -/
  fresh : ∀ c ∈ db'.contributors, (c ∈ db.contributors ∧
      tagOf' c.dictionaryTag c.contributorOrgId = tagOf c.dictionaryTag c.contributorOrgId) ∨
    (.setting c.contributorOrgId ∈ locks ∧ db.tags.next ≤ tagOf' c.dictionaryTag c.contributorOrgId)
  next : db.tags.next ≤ db'.tags.next

theorem TxInv.kept (h : TxInv tagOf db tx) (hready : tx.phase = .ready) :
    TagsKept tx.locks tagOf (tx.writes.origins tx.call.orgId db tagOf) db (tx.writes.apply tx.call.orgId db) := by
  have hplain : tx.phase.isPlain = true := by rw [hready]; rfl
  have htaken : tx.taken = tx.writes.removed := taken_of_plain hplain
  refine ⟨fun n hn => ?_, fun n org hn => ?_, fun org horg => ?_, fun c hc => ?_, next_le_applyTags _ _ _⟩
  · exact dictionaryRow_of_not_mem fun p hp he => hn (he ▸ h.dictionary p hp)
  · refine mem_applyContributors.trans ?_
    have hremoved : ¬ (org = tx.call.orgId ∧ n ∈ tx.writes.removed) := by
      rintro ⟨rfl, hmem⟩
      exact hn (h.taken n (htaken.symm ▸ hmem)).1
    have hadded : ¬ (org = tx.call.orgId ∧ n ∈ tx.writes.added) := by
      rintro ⟨rfl, hmem⟩
      exact hn (h.added n hmem).2.1
    simp [hremoved, hadded]
  · show (if org = tx.call.orgId then tx.writes.applySetting db tx.call.orgId else db.settings org) = _
    split
    · rename_i he
      have hnone : tx.writes.setting = none := by
        rcases hsw : tx.writes.setting with _ | sw
        · rfl
        · exact absurd (he ▸ (h.setting sw hsw).1) horg
      rw [TagWrites.applySetting, hnone, he]
    · rfl
  · rcases mem_applyContributors.mp hc with ⟨hold, -⟩ | ⟨horg, hadded⟩
    · refine .inl ⟨hold, if_neg ?_⟩
      rintro ⟨horg, hadded⟩
      exact (h.added _ hadded).2.2.1 (horg ▸ hold)
    · refine .inr ⟨horg ▸ (h.added _ hadded).2.2.2.1, ?_⟩
      rw [TagWrites.origins, if_pos ⟨horg, hadded⟩]
      exact Nat.le_add_right _ _

/-- **What a transaction knows is not touched by the commit of another.** -/
theorem TxInv.after {tagOf' : String → Nat → Nat} {locks : List TagLock} (h : TxInv tagOf db tx)
    (hkept : TagsKept locks tagOf tagOf' db db') (happart : ∀ k ∈ tx.locks, k ∉ locks) : TxInv tagOf' db' tx := by
  have hshares : .setting tx.call.orgId ∈ tx.locks →
      isShareTagDataEnabled db' tx.call.orgId = isShareTagDataEnabled db tx.call.orgId := fun hlock => by
    rw [isShareTagDataEnabled, hkept.settings _ (happart _ hlock), isShareTagDataEnabled]
  have hsharing : ∀ n, Sharing db tx n → Sharing db' tx n := fun n hs => ⟨hs.1, (hshares hs.1).trans hs.2.1, hs.2.2⟩
  exact
    { added := fun n hn => by
        obtain ⟨hins, hlock, hnew, hsetting, hen⟩ := h.added n hn
        exact ⟨hins, hlock, fun hmem => hnew ((hkept.contributors n _ (happart _ hlock)).mp hmem), hsetting,
          (hshares hsetting).trans hen⟩
      addedOnce := h.addedOnce
      taken := fun n hn => by
        obtain ⟨hlock, hmem⟩ := h.taken n hn
        exact ⟨hlock, (hkept.contributors n _ (happart _ hlock)).mpr hmem⟩
      takenOnce := h.takenOnce
      dictionary := h.dictionary
      counts := fun n => by
        by_cases hlock : .dictionary n ∈ tx.locks
        · have hsame := hkept.dictionary n (happart _ hlock)
          have hrow : tx.writes.dictionaryRow db' n = tx.writes.dictionaryRow db n := by
            rw [TagWrites.dictionaryRow, hsame, TagWrites.dictionaryRow]
          rw [hrow, hsame]
          exact h.counts n
        · -- it has not written the row, so it moves nothing
          have hnone : ∀ p ∈ tx.writes.dictionary, p.1 ≠ n := fun p hp he => hlock (he ▸ h.dictionary p hp)
          have hcounts := h.counts n
          rw [dictionaryRow_of_not_mem hnone] at hcounts ⊢
          have hzero : tx.moved n = 0 := by
            have := congrArg TagDictionary.contributorOrgCount hcounts
            simp only [TagDictionary.shift] at this
            omega
          rw [hzero, shift_zero]
      creates := h.creates
      setting := fun sw hsw => by
        obtain ⟨hlock, hstops⟩ := h.setting sw hsw
        refine ⟨hlock, fun hs => (hstops hs).imp_right fun hcovers c hc horg => ?_⟩
        rcases hkept.fresh c hc with ⟨hold, -⟩ | ⟨hother, -⟩
        · exact hcovers c hold horg
        · exact absurd (horg ▸ hother) (happart _ hlock)
      target := fun tag htag => by
        obtain ⟨hlt, hcovers⟩ := h.target tag htag
        refine ⟨hlt.trans_le hkept.next, fun c hc hof => ?_⟩
        rcases hkept.fresh c hc with ⟨hold, hsame⟩ | ⟨-, hnew⟩
        · exact hcovers c hold (hsame.symm.trans hof)
        · omega
      knows := by
        have hknows := h.knows
        revert hknows
        cases tx.phase with
        | selecting | creating | refetching | checking | contributing => exact fun hk => ⟨hk.1, hsharing _ hk.2⟩
        | _ => exact id
      next := h.next.trans hkept.next
      snapshot := fun c hc s hs => by
        rcases hkept.fresh c hc with ⟨hold, hsame⟩ | ⟨-, hnew⟩
        · exact h.snapshot c hold s (hsame ▸ hs)
        · rw [Table.get?_of_next_le (h.next.trans hnew)] at hs
          cases hs }

end Commits

/-! ## Runs -/

/-- What every run keeps. -/
structure TagInv (w : TagWorld) (tagOf : String → Nat → Nat) : Prop where
  sound : TagsSound tagOf w.db
  exclusive : w.txs.Exclusive TagTx.locks
  txs : ∀ i tx, w.txs.get? i = some tx → TxInv tagOf w.db tx

theorem TagInv.put {w : TagWorld} {tagOf : String → Nat → Nat} {id : Nat} {tx tx' : TagTx} (h : TagInv w tagOf)
    (htx : w.txs.get? id = some tx) (hnew : Advances tagOf w id tx tx') : TagInv (w.put id tx') tagOf where
  sound := h.sound
  exclusive := h.exclusive.modify htx hnew.locks
  txs i s hs := by
    rcases Table.get?_modify_cases htx hs with ⟨-, rfl⟩ | ⟨-, hs⟩
    · exact hnew.inv
    · exact h.txs i s hs

theorem TagInv.commit {w : TagWorld} {tagOf : String → Nat → Nat} {id : Nat} {tx : TagTx} (h : TagInv w tagOf)
    (htx : w.txs.get? id = some tx) (hready : tx.phase = .ready) :
    TagInv { (w.put id (tx.finish (.ok ()))) with db := tx.writes.apply tx.call.orgId w.db }
      (tx.writes.origins tx.call.orgId w.db tagOf) := by
  have hinv := h.txs id tx htx
  have hkept := hinv.kept hready
  have hdone := h.put htx (.finish hinv (.ok ()))
  refine ⟨h.sound.commit hinv hready, hdone.exclusive, fun i s hs => ?_⟩
  refine (hdone.txs i s hs).after hkept fun k hk hheld => ?_
  -- the lock is held by the one that commits only
  rcases Table.get?_modify_cases htx hs with ⟨-, rfl⟩ | ⟨hi, hs⟩
  · cases hk
  · exact hi (h.exclusive i id s tx k hs htx hk hheld)

theorem TagInv.step {lower : String → String} {w w' : TagWorld} {ev : TagEvent} {tagOf : String → Nat → Nat}
    (h : TagInv w tagOf) (hcurrent : CountsCurrent w ev) (hstep : tagStep lower w ev = .ok w') :
    ∃ tagOf', TagInv w' tagOf' := by
  cases ev with
  | begin call =>
    obtain rfl := Except.ok.inj hstep
    refine ⟨tagOf, h.sound, h.exclusive.insert rfl, fun i s hs => ?_⟩
    rcases Table.get?_insert_cases hs with ⟨-, rfl⟩ | ⟨-, hs⟩
    · exact
        { added := fun n hn => by cases hn
          addedOnce := .nil
          taken := fun n hn => by cases hn
          takenOnce := .nil
          dictionary := fun p hp => by cases hp
          counts := fun n => by
            rw [dictionaryRow_of_not_mem fun p hp => by cases hp]
            exact (shift_zero _).symm
          creates := .inl rfl
          setting := settingKnows_of_none rfl
          target := fun tag htag => by cases htag
          knows := rfl
          next := le_rfl
          snapshot := fun c hc s hs => (Option.some.inj ((h.sound.tagged c hc).symm.trans hs)).symm }
    · exact h.txs i s hs
  | next id =>
    obtain ⟨tx, htx, hstep⟩ := bind_eq_ok.mp hstep
    obtain ⟨tx', hnext, hstep⟩ := bind_eq_ok.mp hstep
    obtain rfl := Except.ok.inj hstep
    have htx := found_eq_ok.mp htx
    have hcurrent : tx.countIsCurrent w.db = true := by
      have hall : (w.txs.get? id).all (·.countIsCurrent w.db) = true := hcurrent
      rwa [htx] at hall
    exact ⟨tagOf, h.put htx (nextStatement_advances h.sound (h.txs id tx htx) hcurrent hnext)⟩
  | commit id =>
    obtain ⟨tx, htx, hstep⟩ := bind_eq_ok.mp hstep
    split at hstep
    · exact ⟨_, Except.ok.inj hstep ▸ h.commit (found_eq_ok.mp htx) ‹_›⟩
    · cases hstep
  | fail id =>
    obtain ⟨tx, htx, hstep⟩ := bind_eq_ok.mp hstep
    have htx := found_eq_ok.mp htx
    split at hstep
    · cases hstep
    · exact ⟨tagOf, Except.ok.inj hstep ▸ h.put htx (.finish (h.txs id tx htx) _)⟩

/-- The dictionary says what its contributor rows say. -/
structure DictionaryExact (db : TagDb) : Prop where
  counts : ∀ n row, db.dictionary n = some row →
    row.contributorOrgCount = contributorCount db n ∧ row.usageCount = contributorCount db n
  nonneg : ∀ n row, db.dictionary n = some row → 0 ≤ row.contributorOrgCount ∧ 0 ≤ row.usageCount
  contributors : ∀ c ∈ db.contributors, (db.dictionary c.dictionaryTag).isSome = true ∧
    isShareTagDataEnabled db c.contributorOrgId = true ∧ hasTag db c.contributorOrgId c.dictionaryTag = true
  /-- The unique key of the contributors. -/
  once : db.contributors.Nodup

theorem hasTag_iff {orgId : Nat} {n : String} :
    hasTag db orgId n = true ↔ ∃ i, db.tags.get? i = some { orgId, nameNormalized := n } := by
  rw [hasTag, List.any_eq_true]
  constructor
  · rintro ⟨⟨i, tag⟩, hmem, htag⟩
    exact ⟨i, by rw [← beq_iff_eq.mp htag]; exact Table.mem_rows.mp hmem⟩
  · rintro ⟨i, hi⟩
    exact ⟨(i, _), Table.mem_rows.mpr hi, beq_self_eq_true _⟩

theorem TagsSound.exact {tagOf : String → Nat → Nat} (h : TagsSound tagOf db) : DictionaryExact db := by
  have hcounts : ∀ n row, db.dictionary n = some row →
      row.contributorOrgCount = contributorCount db n ∧ row.usageCount = contributorCount db n := by
    intro n row hrow
    have hrow' : row = TagDictionary.zero.shift (contributorCount db n) := by
      rw [← h.counts n, hrow]
      rfl
    rw [hrow']
    simp [TagDictionary.shift, TagDictionary.zero]
  refine ⟨hcounts, fun n row hrow => ?_, fun c hc => ?_, h.once⟩
  · obtain ⟨hcount, husage⟩ := hcounts n row hrow
    omega
  · exact ⟨h.row_isSome hc, h.shares c hc, hasTag_iff.mpr ⟨_, h.tagged c hc⟩⟩

theorem DictionaryExact.sound (h : DictionaryExact db) : ∃ tagOf, TagsSound tagOf db := by
  have htags : ∀ n org, ∃ i, { dictionaryTag := n, contributorOrgId := org } ∈ db.contributors →
      db.tags.get? i = some { orgId := org, nameNormalized := n } := by
    intro n org
    by_cases hc : { dictionaryTag := n, contributorOrgId := org } ∈ db.contributors
    · obtain ⟨i, hi⟩ := hasTag_iff.mp (h.contributors _ hc).2.2
      exact ⟨i, fun _ => hi⟩
    · exact ⟨0, fun hc' => absurd hc' hc⟩
  choose tagOf htagOf using htags
  refine ⟨tagOf, fun n => ?_, h.once, fun c hc => (h.contributors c hc).2.1, fun c hc => htagOf _ _ hc⟩
  rcases hrow : db.dictionary n with _ | row
  · -- no row, so no contributor
    have hnone : contributorCount db n = 0 := by
      refine List.countP_eq_zero.mpr fun c hc htag => ?_
      have hsome := (h.contributors c hc).1
      rw [beq_iff_eq.mp htag, hrow] at hsome
      cases hsome
    rw [hnone]
    rfl
  · obtain ⟨hcount, husage⟩ := h.counts n row hrow
    refine TagDictionary.ext ?_ ?_
    · simpa [countsOf, TagDictionary.shift, TagDictionary.zero] using hcount
    · simpa [countsOf, TagDictionary.shift, TagDictionary.zero] using husage

/-- **The dictionary is exact** after every run in which no increment writes over a value
other than the one it read. -/
theorem dictionary_exact (lower : String → String) (db : TagDb) (hstart : DictionaryExact db) (events : List TagEvent)
    (hcurrent : Guarded (tagStep lower) CountsCurrent { db } events) :
    DictionaryExact (run (tagStep lower) { db } events).db := by
  obtain ⟨tagOf, hsound⟩ := hstart.sound
  have hinit : TagInv { db } tagOf := ⟨hsound, .empty, fun i tx htx => by cases htx⟩
  have hstep : ∀ w ev w', (∃ tagOf, TagInv w tagOf) → CountsCurrent w ev → tagStep lower w ev = .ok w' →
      ∃ tagOf, TagInv w' tagOf := by
    intro w ev w' h hg hs
    obtain ⟨tagOf, h⟩ := h
    exact h.step hg hs
  obtain ⟨tagOf, hinv⟩ := run_invariant_of_guarded hstep events hcurrent ⟨tagOf, hinit⟩
  exact hinv.sound.exact

/-- Three orgs that share, one of which has contributed "food". -/
def sharedFood : TagDb where
  tags := Table.empty.insert { orgId := 3, nameNormalized := "food" }
  dictionary n := if n = "food" then some { contributorOrgCount := 1, usageCount := 1 } else none
  contributors := [{ dictionaryTag := "food", contributorOrgId := 3 }]
  settings org := if org ≤ 3 then some { id := org, value := "true" } else none
  nextSettingId := 4

theorem sharedFood_exact : DictionaryExact sharedFood := by
  have hrow : ∀ n row, sharedFood.dictionary n = some row →
      n = "food" ∧ row = { contributorOrgCount := 1, usageCount := 1 } := by
    intro n row h
    have h : (if n = "food" then some ({ contributorOrgCount := 1, usageCount := 1 } : TagDictionary) else none) = some row := h
    split at h
    · exact ⟨‹_›, (Option.some.inj h).symm⟩
    · cases h
  refine ⟨fun n row h => ?_, fun n row h => ?_, fun c hc => ?_, by decide⟩
  · obtain ⟨rfl, rfl⟩ := hrow n row h
    decide
  · obtain ⟨rfl, rfl⟩ := hrow n row h
    decide
  · rw [List.mem_singleton.mp hc]
    decide

/-- A transaction through all its statements, and committed. -/
def throughTag (id : Nat) : List TagEvent := List.replicate 9 (.next id) ++ [.commit id]

/-- One org after the other. -/
theorem dictionary_exact_serial : DictionaryExact (run (tagStep fun s => s) { db := sharedFood }
    ([.begin (.createTag 1 "food")] ++ throughTag 1 ++ [.begin (.createTag 2 "food")] ++ throughTag 2)).db :=
  dictionary_exact (fun s => s) sharedFood sharedFood_exact _ (by decide +kernel)

/-- **Two orgs at once**: the second to write reads the count before the first has
committed, and writes the same number over it. -/
theorem increment_lost :
    ∃ db, db = (run (tagStep fun s => s) { db := sharedFood }
      ([.begin (.createTag 1 "food"), .begin (.createTag 2 "food")] ++ throughTag 1 ++ throughTag 2)).db ∧
        DictionaryExact sharedFood ∧ contributorCount db "food" = 3 ∧
          db.dictionary "food" = some { contributorOrgCount := 2, usageCount := 2 } :=
  ⟨_, rfl, sharedFood_exact, by decide +kernel, by decide +kernel⟩

end BetterDecision
