import BetterDecision.Proof.Review

/-!
# Confirming an import

A confirm creates rows the way a user does, and enrols those it created. The rows it
enrols are new, so they are accepted and in no batch yet, which is why the two
counters it adds to are right.
-/

namespace BetterDecision

variable {rules : Rules} {db db' db'' : Db} {orgId : Nat}

/-! ## Rows that stay as enrolled and reviewed as they were -/

/-- The rows that were there are there, in their batches and states. -/
def Keeps (rows rows' : Table Transaction) : Prop :=
  ∀ i t, rows.get? i = some t → ∃ t', rows'.get? i = some t' ∧ t'.orgId = t.orgId ∧
    t'.importBatchId = t.importBatchId ∧ t'.reconciliationState = t.reconciliationState

theorem Keeps.refl (rows : Table Transaction) : Keeps rows rows := fun _ t h => ⟨t, h, rfl, rfl, rfl⟩

theorem Keeps.trans {rows rows' rows'' : Table Transaction} (h : Keeps rows rows') (k : Keeps rows' rows'') :
    Keeps rows rows'' := by
  intro i t ht
  obtain ⟨t', ht', horg, hbatch, hstate⟩ := h i t ht
  obtain ⟨t'', ht'', korg, kbatch, kstate⟩ := k i t' ht'
  exact ⟨t'', ht'', korg.trans horg, kbatch.trans hbatch, kstate.trans hstate⟩

theorem keeps_insert (rows : Table Transaction) (tx : Transaction) : Keeps rows (rows.insert tx) :=
  fun _ t h => ⟨t, Table.get?_insert_of_some h, rfl, rfl, rfl⟩

theorem keeps_modify {rows : Table Transaction} {k : Nat} {f : Transaction → Transaction}
    (hf : ∀ t, (f t).orgId = t.orgId ∧ (f t).importBatchId = t.importBatchId ∧
      (f t).reconciliationState = t.reconciliationState) : Keeps rows (rows.modify k f) := by
  intro i t ht
  refine ⟨_, Table.get?_modify_eq_some.mpr ⟨t, ht, rfl⟩, ?_⟩
  split
  · exact hf t
  · exact ⟨rfl, rfl, rfl⟩

theorem keeps_setLink (db : Db) (id : Nat) (link : Option Nat) :
    Keeps db.transactions (setLink id link db).transactions :=
  keeps_modify (f := fun t => { t with linkedTransactionId := link }) fun _ => ⟨rfl, rfl, rfl⟩

theorem keeps_setCategory (db : Db) (id categoryId : Nat) :
    Keeps db.transactions (setCategory id categoryId db).transactions :=
  keeps_modify (f := fun t => { t with categoryId }) fun _ => ⟨rfl, rfl, rfl⟩

theorem linkPair_keeps {expense income : Row} {recategorize : Bool} {transferCategoryId : Option Nat}
    (h : linkPair db expense income recategorize transferCategoryId = .ok db') :
    Keeps db.transactions db'.transactions := by
  have hlinks : ∀ (db : Db) (e i : Nat), Keeps db.transactions
      (setLink i (some e) (setLink e (some i) db)).transactions :=
    fun db e i => (keeps_setLink db e _).trans (keeps_setLink _ i _)
  obtain ⟨-, db₁, hdb₁, rfl⟩ := linkPair_ok h
  rcases hdb₁ with rfl | ⟨categories, c, rfl⟩
  · exact hlinks _ _ _
  · refine Keeps.trans ?_ (hlinks _ _ _)
    exact (keeps_setCategory { db with categories } _ c).trans (keeps_setCategory _ _ c)

/-! ## One row -/

theorem linkByType_wrote {row : ImportConfirmRow} {i j : Nat} {new partner : Transaction}
    (hcur : currencyOf db = rules.currency) (hnew : db.transactions.get? i = some new)
    (hpartner : db.transactions.get? j = some partner)
    (h : linkByType db row (i, new) (j, partner) = .ok db') :
    Wrote rules db 0 0 db' ∧ Keeps db.transactions db'.transactions := by
  unfold linkByType at h
  split at h
  · exact ⟨linkPair_wrote hcur hnew hpartner h, linkPair_keeps h⟩
  · exact ⟨linkPair_wrote hcur hpartner hnew h, linkPair_keeps h⟩

/-- A row created is there, and the rows before it are as they were. -/
theorem created_keeps {body : TransactionCreate} {imported manual : Bool} {row : Row}
    (h : createTransactionNoCommit db orgId body imported manual = .ok (db', row)) :
    db'.transactions.get? row.1 = some row.2 ∧ row.1 = db.transactions.next ∧ NewRow orgId row.2 ∧
      row.2.reconciliationState = .accepted ∧ Keeps db.transactions db'.transactions := by
  obtain ⟨hnew, haccepted, hid, rfl⟩ := createTransactionNoCommit_ok h
  refine ⟨?_, hid, hnew, haccepted, keeps_insert _ _⟩
  rw [hid]
  exact (Table.get?_insert _ _ _).trans (if_pos rfl)

/-- A row that a chunk has created so far: the org's, accepted, and in no batch. -/
structure Fresh (orgId : Nat) (rows : Table Transaction) (i : Nat) : Prop where
  row : ∃ t, rows.get? i = some t ∧ t.orgId = orgId ∧ t.importBatchId = none ∧ t.reconciliationState = .accepted

theorem Fresh.of_keeps {rows rows' : Table Transaction} {i : Nat} (h : Fresh orgId rows i)
    (k : Keeps rows rows') : Fresh orgId rows' i := by
  obtain ⟨t, ht, horg, hbatch, hstate⟩ := h.row
  obtain ⟨t', ht', korg, kbatch, kstate⟩ := k i t ht
  exact ⟨t', ht', korg.trans horg, kbatch.trans hbatch, kstate.trans hstate⟩

theorem confirmRow_ok {accountId id : Nat} {row : ImportConfirmRow} (hcur : currencyOf db = rules.currency)
    (h : confirmRow db orgId accountId row = .ok (db', id)) :
    Posted rules db db' ∧ Keeps db.transactions db'.transactions ∧ id = db.transactions.next ∧
      Fresh orgId db'.transactions id := by
  obtain ⟨account, -, h⟩ := bind_eq_ok.mp h
  obtain ⟨-, -, h⟩ := bind_eq_ok.mp h
  obtain ⟨⟨db₁, i, new⟩, hcreate, h⟩ := bind_eq_ok.mp h
  have hposted : Posted rules db db₁ := createTransactionNoCommit_posted hcreate
  obtain ⟨hget, hid, hnew, haccepted, hkeeps⟩ := created_keeps hcreate
  have hfresh : Fresh orgId db₁.transactions i := ⟨new, hget, hnew.org, hnew.unenrolled, haccepted⟩
  have hcur₁ := hposted.currency.trans hcur
  dsimp only at h
  split at h
  · obtain ⟨rfl, rfl⟩ := Prod.mk.inj (Except.ok.inj h)
    exact ⟨hposted, hkeeps, hid, hfresh⟩
  · obtain ⟨partner, hpartner, h⟩ := bind_eq_ok.mp h
    obtain ⟨-, -, h⟩ := bind_eq_ok.mp h
    obtain ⟨-, -, h⟩ := bind_eq_ok.mp h
    obtain ⟨-, -, h⟩ := bind_eq_ok.mp h
    obtain ⟨-, -, h⟩ := bind_eq_ok.mp h
    obtain ⟨db₂, hlink, h⟩ := bind_eq_ok.mp h
    obtain ⟨rfl, rfl⟩ := Prod.mk.inj (Except.ok.inj h)
    rw [found_eq_ok, findTransaction_eq_some] at hpartner
    obtain ⟨hwrote, hkeeps₂⟩ := linkByType_wrote hcur₁ hget hpartner.1 hlink
    exact ⟨hposted.trans hwrote.quiet, hkeeps.trans hkeeps₂, hid, hfresh.of_keeps hkeeps₂⟩
  · obtain ⟨⟨db₂, j, partner⟩, hcreate₂, h⟩ := bind_eq_ok.mp h
    obtain ⟨db₃, hlink, h⟩ := bind_eq_ok.mp h
    obtain ⟨rfl, rfl⟩ := Prod.mk.inj (Except.ok.inj h)
    have hposted₂ : Posted rules db₁ db₂ := createTransactionNoCommit_posted hcreate₂
    obtain ⟨hget₂, -, -, -, hkeeps₂⟩ := created_keeps hcreate₂
    have hgetNew : db₂.transactions.get? i = some new := by
      obtain ⟨-, -, -, rfl⟩ := createTransactionNoCommit_ok hcreate₂
      exact Table.get?_insert_of_some hget
    obtain ⟨hwrote, hkeeps₃⟩ := linkByType_wrote (hposted₂.currency.trans hcur₁) hgetNew hget₂ hlink
    have hall := hkeeps₂.trans hkeeps₃
    exact ⟨(hposted.trans hposted₂).trans hwrote.quiet, hkeeps.trans hall, hid, hfresh.of_keeps hall⟩

/-! ## One chunk -/

theorem applyConfirmRows_ok (orgId accountId : Nat) (rows : List ImportConfirmRow)
    (hcur : currencyOf db = rules.currency) :
    Posted rules db (applyConfirmRows db orgId accountId rows).1 ∧
      (applyConfirmRows db orgId accountId rows).2.Nodup ∧
      ∀ i ∈ (applyConfirmRows db orgId accountId rows).2,
        Fresh orgId (applyConfirmRows db orgId accountId rows).1.transactions i := by
  unfold applyConfirmRows
  refine List.foldlRecOn (motive := fun acc : Db × List Nat => Posted rules db acc.1 ∧ acc.2.Nodup ∧
    ∀ i ∈ acc.2, Fresh orgId acc.1.transactions i) rows _ ⟨.refl db, List.nodup_nil, by simp⟩ ?_
  rintro acc ⟨hp, hn, hf⟩ row -
  rcases hrow : confirmRow acc.1 orgId accountId row with e | ⟨db₁, id⟩
  · exact ⟨hp, hn, hf⟩
  · obtain ⟨hposted, hkeeps, hid, hfresh⟩ := confirmRow_ok (hp.currency.trans hcur) hrow
    refine ⟨hp.trans hposted, ?_, ?_⟩
    · -- an id not yet handed out is none of those created before
      refine List.nodup_append.mpr ⟨hn, List.nodup_singleton _, ?_⟩
      intro i hi j hj
      rw [List.mem_singleton.mp hj, hid]
      obtain ⟨t, ht, -⟩ := (hf i hi).row
      exact (Table.get?_lt_next ht).ne
    · intro i hi
      rcases List.mem_append.mp hi with hi | hi
      · exact (hf i hi).of_keeps hkeeps
      · rw [List.mem_singleton.mp hi]
        exact hfresh

/-- Rows moved between batches move no balance. -/
theorem moved_rebatch (db : Db) (f : Nat → Transaction → Option Nat) :
    Trail (Move rules) db.books (0, (shift db.transactions (fun i t => { t with importBatchId := f i t })).2)
      { db.books with rows := db.transactions.mapRows (fun i t => { t with importBatchId := f i t }) } := by
  have hfst : (shift db.transactions (fun i t => { t with importBatchId := f i t })).1 = 0 := by
    rw [shift, Table.total_fst, ← Table.total_zero db.transactions]
    refine Table.total_congr fun i t _ => ?_
    show booked db.transactions (i, { t with importBatchId := f i t }) - booked db.transactions (i, t) = 0
    exact sub_eq_zero.mpr (booked_congr rfl rfl rfl rfl fun _ _ => Iff.rfl)
  have hmove : Move rules db.books (shift db.transactions (fun i t => { t with importBatchId := f i t }))
      { db.books with rows := db.transactions.mapRows (fun i t => { t with importBatchId := f i t }) } := by
    refine .rewrite (b := db.books) (fun i t => { t with importBatchId := f i t }) ?_ ?_
    · exact fun i a _ => ⟨rfl, rfl⟩
    · exact fun i a j c _ h => ⟨h.org, h.expense, h.income, h.amount, h.accounts, h.currency⟩
  rw [← hfst]
  exact .single hmove

/-- Enrolling is a change of batches, and of the batch's header. -/
theorem enrolRows_eq (db : Db) (batchId : Nat) (ids : List Nat) :
    enrolRows db orgId batchId ids = { db with
      transactions := db.transactions.mapRows (fun i t =>
        { t with importBatchId := if t.orgId = orgId ∧ ids.contains i then some batchId else t.importBatchId })
      importBatches := db.importBatches.modify batchId (fun b => { b with
        rowCount := b.rowCount + ids.length, acceptedCount := b.acceptedCount + ids.length }) } := by
  have hrows : db.transactions.mapRows (fun i t =>
        if t.orgId = orgId ∧ ids.contains i then { t with importBatchId := some batchId } else t) =
      db.transactions.mapRows (fun i t =>
        { t with importBatchId := if t.orgId = orgId ∧ ids.contains i then some batchId else t.importBatchId }) := by
    refine Table.mapRows_congr fun i t _ => ?_
    by_cases h : t.orgId = orgId ∧ ids.contains i = true
    · rw [if_pos h, if_pos h]
    · rw [if_neg h, if_neg h]
  rw [← hrows]
  rfl

theorem enrolRows_moved (db : Db) (orgId batchId : Nat) (ids : List Nat) :
    Moved rules db (enrolRows db orgId batchId ids) := by
  rw [enrolRows_eq]
  exact ⟨_, moved_rebatch db
    (fun i t => if t.orgId = orgId ∧ ids.contains i then some batchId else t.importBatchId),
    (credit_zero _).symm⟩

/-- What enrolling new rows adds to the numbers. -/
theorem weight_enrolRows (batchId : Nat) {ids : List Nat} (hnodup : ids.Nodup)
    (hfresh : ∀ i ∈ ids, Fresh orgId db.transactions i) (key : Nat × Nat) (test : ReconciliationState → Bool) :
    (weight (enrolRows db orgId batchId ids).transactions).2 key test =
      (weight db.transactions).2 key test +
        if key = (orgId, batchId) ∧ test .accepted then (ids.length : Int) else 0 := by
  have hsum : db.transactions.total (fun i t => if ids.contains i then
      (if key = (orgId, batchId) ∧ test .accepted then (1 : Int) else 0) else 0) =
        if key = (orgId, batchId) ∧ test .accepted then (ids.length : Int) else 0 := by
    rw [Table.total_contains hnodup fun i hi => (hfresh i hi).row.imp fun t ht => ht.1]
    split <;> simp
  rw [enrolRows_eq, weight_snd, weight_snd, Table.total_mapRows, ← hsum, ← Table.total_add]
  refine Table.total_congr fun i t ht => ?_
  by_cases hi : ids.contains i = true
  · obtain ⟨t', ht', horg, hbatch, hstate⟩ := (hfresh i (List.contains_iff_mem.mp hi)).row
    rw [ht] at ht'
    obtain rfl := Option.some.inj ht'
    have hout : isEnrolled key test t = false := by
      unfold isEnrolled
      rw [hbatch]
      simp
    have hin : isEnrolled key test { t with
          importBatchId := if t.orgId = orgId ∧ ids.contains i then some batchId else t.importBatchId } =
        (decide (key = (orgId, batchId)) && test .accepted) := by
      have hkey : (orgId == key.1 && some batchId == some key.2) = decide (key = (orgId, batchId)) := by
        rw [Bool.eq_iff_iff, Bool.and_eq_true, beq_iff_eq, beq_iff_eq, decide_eq_true_eq, Prod.ext_iff]
        exact ⟨fun h => ⟨h.1.symm, (Option.some.inj h.2).symm⟩, fun h => ⟨h.1.symm, congrArg some h.2.symm⟩⟩
      unfold isEnrolled
      rw [if_pos ⟨horg, hi⟩, horg, hstate, hkey]
    rw [hout, hin, if_pos hi]
    simp
  · have hnot : ¬ (t.orgId = orgId ∧ ids.contains i = true) := fun h => hi h.2
    rw [if_neg hnot, if_neg hi, add_zero]

theorem enrolRows_recounted {batchId : Nat} {ids : List Nat} {b : ImportBatch} (hnodup : ids.Nodup)
    (hfresh : ∀ i ∈ ids, Fresh orgId db.transactions i) (hb : db.importBatches.get? batchId = some b)
    (horg : b.orgId = orgId) : Recounted db (enrolRows db orgId batchId ids) := by
  have hw := weight_enrolRows batchId hnodup hfresh
  have hbatches : (enrolRows db orgId batchId ids).importBatches = db.importBatches.modify batchId (fun b =>
      { b with rowCount := b.rowCount + ids.length, acceptedCount := b.acceptedCount + ids.length }) := by
    rw [enrolRows_eq]
  have haway : ∀ {k : Nat} {org : Nat}, k ≠ batchId → ∀ test,
      (weight (enrolRows db orgId batchId ids).transactions).2 (org, k) test =
        (weight db.transactions).2 (org, k) test := by
    intro k org hk test
    rw [hw, if_neg (fun h => hk (Prod.mk.inj h.1).2), add_zero]
  have hhere : ∀ {c : ImportBatch}, db.importBatches.get? batchId = some c → c.orgId = orgId := by
    intro c hc
    rw [hb] at hc
    rw [← Option.some.inj hc, horg]
  constructor
  · intro h
    rw [hbatches]
    refine ⟨?_, ?_, ?_, ?_⟩
    · intro k c' hc'
      obtain ⟨c, hc, rfl⟩ := Table.get?_modify_eq_some.mp hc'
      split
      · subst ‹k = batchId›
        rw [hw, if_pos ⟨by rw [hhere hc], rfl⟩, ← h.rows k c hc]
      · rw [haway ‹_›]
        exact h.rows k c hc
    · intro k c' hc'
      obtain ⟨c, hc, rfl⟩ := Table.get?_modify_eq_some.mp hc'
      split
      · subst ‹k = batchId›
        rw [hw, if_pos ⟨by rw [hhere hc], rfl⟩, ← h.accepted k c hc]
      · rw [haway ‹_›]
        exact h.accepted k c hc
    · intro k c' hc'
      obtain ⟨c, hc, rfl⟩ := Table.get?_modify_eq_some.mp hc'
      split
      · subst ‹k = batchId›
        rw [hw, if_neg (by simp [ReconciliationState.isPending]), add_zero]
        exact h.pending k c hc
      · rw [haway ‹_›]
        exact h.pending k c hc
    · intro org k hne
      by_cases hk : k = batchId
      · subst hk
        refine ⟨_, Table.get?_modify_eq_some.mpr ⟨b, hb, rfl⟩, ?_⟩
        rw [if_pos rfl]
        by_cases ho : org = orgId
        · exact horg.trans ho.symm
        · rw [hw, if_neg (fun h => ho (Prod.mk.inj h.1).1), add_zero] at hne
          obtain ⟨c, hc, hcorg⟩ := h.homes org k hne
          exact (horg.trans (hhere hc).symm).trans hcorg
      · rw [haway hk] at hne
        obtain ⟨c, hc, hcorg⟩ := h.homes org k hne
        exact ⟨c, by rw [Table.get?_modify_of_ne hk, hc], hcorg⟩
  · intro _ hs
    rw [hbatches]
    intro k c' hc' hclosed
    obtain ⟨c, hc, rfl⟩ := Table.get?_modify_eq_some.mp hc'
    have hsame : ∀ org, (weight (enrolRows db orgId batchId ids).transactions).2 (org, k) (·.isPending) =
        (weight db.transactions).2 (org, k) (·.isPending) := by
      intro org
      rw [hw, if_neg (by simp [ReconciliationState.isPending]), add_zero]
    rw [hsame]
    split at hclosed
    · rw [if_pos ‹_›]
      exact hs k c hc hclosed
    · rw [if_neg ‹_›]
      exact hs k c hc hclosed

/-- An empty header goes with no row left behind. -/
theorem deleteBatch_keeps (db : Db) (batchId : Nat) :
    Moved rules db (deleteBatch db batchId) ∧
      ((∀ b, db.importBatches.get? batchId = some b → b.rowCount = 0) → Recounted db (deleteBatch db batchId)) := by
  have hrows : (deleteBatch db batchId).transactions = db.transactions.mapRows (fun _ t =>
      { t with importBatchId := if t.importBatchId = some batchId then none else t.importBatchId }) := by
    have hsame : db.transactions.mapRows (fun _ t =>
          if t.importBatchId = some batchId then { t with importBatchId := none } else t) =
        db.transactions.mapRows (fun _ t =>
          { t with importBatchId := if t.importBatchId = some batchId then none else t.importBatchId }) := by
      refine Table.mapRows_congr fun i t _ => ?_
      by_cases h : t.importBatchId = some batchId
      · rw [if_pos h, if_pos h]
      · rw [if_neg h, if_neg h]
    exact hsame
  have htrail : Trail (Move rules) db.books _ _ := moved_rebatch db
    (fun _ t => if t.importBatchId = some batchId then none else t.importBatchId)
  rw [← hrows] at htrail
  refine ⟨⟨_, htrail, (credit_zero _).symm⟩, fun hempty => ?_⟩
  · have hsame : Counted (weight db.transactions).2 db.importBatches →
        (deleteBatch db batchId).transactions = db.transactions := by
      intro h
      rw [hrows]
      refine Table.mapRows_eq_self fun i t ht => ?_
      have hnot : ¬ t.importBatchId = some batchId := by
        intro hk
        have hne : (weight db.transactions).2 (t.orgId, batchId) (fun _ => true) ≠ 0 :=
          weight_ne_zero.mpr ⟨i, t, ht, by simp [isEnrolled, hk]⟩
        obtain ⟨b, hb, horg⟩ := h.homes _ _ hne
        rw [← horg, ← h.rows _ b hb, hempty b hb] at hne
        exact hne rfl
      rw [if_neg hnot]
    have hget : ∀ k b, (deleteBatch db batchId).importBatches.get? k = some b →
        db.importBatches.get? k = some b := by
      intro k b hb
      have := (Table.get?_remove db.importBatches (· == batchId) k).symm.trans hb
      split at this
      · cases this
      · exact this
    constructor
    · intro h
      rw [hsame h]
      refine ⟨fun k b hb => h.rows k b (hget k b hb), fun k b hb => h.accepted k b (hget k b hb),
        fun k b hb => h.pending k b (hget k b hb), ?_⟩
      intro org k hne
      obtain ⟨b, hb, horg⟩ := h.homes org k hne
      refine ⟨b, (Table.get?_remove _ _ _).trans ?_, horg⟩
      by_cases hk : k = batchId
      · subst hk
        rw [← horg, ← h.rows k b hb, hempty b hb] at hne
        exact absurd rfl hne
      · rw [if_neg (by simpa using hk), hb]
    · intro h hs
      rw [hsame h]
      exact fun k b hb => hs k b (hget k b hb)

theorem confirmChunk_keeps {batchId : Nat} {rows : List ImportConfirmRow} {completed : Bool}
    (ho : Orderly rules db.books) (hcur : currencyOf db = rules.currency) :
    Moved rules db (confirmChunk db orgId batchId rows completed) ∧
      Recounted db (confirmChunk db orgId batchId rows completed) := by
  unfold confirmChunk
  split
  · exact ⟨.refl db, .refl db⟩
  · rename_i batch hbatch
    obtain ⟨hb, horg⟩ : db.importBatches.get? batchId = some batch ∧ batch.orgId = orgId := by
      rwa [findBatch, Option.filter_eq_some_iff, beq_iff_eq] at hbatch
    obtain ⟨hposted, hnodup, hfresh⟩ := applyConfirmRows_ok orgId batch.accountId rows hcur
    dsimp only
    generalize applyConfirmRows db orgId batch.accountId rows = acc at hposted hnodup hfresh
    obtain ⟨db₁, ids⟩ := acc
    dsimp only at hposted hnodup hfresh ⊢
    have hb₁ : db₁.importBatches.get? batchId = some batch := by
      obtain ⟨μ, hwrote⟩ := hposted
      rw [hwrote.batches, hb]
    have hmoved := hposted.moved.trans (enrolRows_moved db₁ orgId batchId ids)
    have hcounted := (hposted.recounted ho).trans (enrolRows_recounted hnodup hfresh hb₁ horg)
    split
    · obtain ⟨hdel, hdelcount⟩ : Moved rules _ _ ∧ _ :=
        deleteBatch_keeps (enrolRows db₁ orgId batchId ids) batchId
      refine ⟨hmoved.trans hdel, hcounted.trans (hdelcount ?_)⟩
      intro b' hb'
      rw [enrolRows_eq] at hb'
      obtain ⟨c, hc, rfl⟩ := Table.get?_modify_eq_some.mp hb'
      rw [hb₁] at hc
      obtain rfl := Option.some.inj hc
      rw [if_pos rfl]
      exact ‹completed = true ∧ _›.2
    · exact ⟨hmoved, hcounted⟩

/-- No row is in a batch that is not there. -/
theorem Counted.absent {rows : Table Transaction} {batches : Table ImportBatch}
    (h : Counted (weight rows).2 batches) {k : Nat} (hk : batches.get? k = none) (org : Nat)
    (test : ReconciliationState → Bool) : (weight rows).2 (org, k) test = 0 := by
  by_contra hne
  obtain ⟨i, t, ht, hin⟩ := weight_ne_zero.mp hne
  simp only [isEnrolled, Bool.and_eq_true, beq_iff_eq] at hin
  obtain ⟨b, hb, -⟩ := h.homes org k
    (weight_ne_zero.mpr ⟨i, t, ht, by simp [isEnrolled, hin.1.1, hin.1.2]⟩)
  rw [hk] at hb
  cases hb

/-- A header with nothing in it yet. -/
theorem claimConfirm_keeps {accountId : Nat} (h : claimConfirm db orgId accountId = .ok db') :
    Moved rules db db' ∧ Recounted db db' := by
  obtain ⟨-, -, h⟩ := bind_eq_ok.mp h
  obtain rfl := Except.ok.inj h
  refine ⟨⟨0, .refl _, (credit_zero _).symm⟩, ?_, ?_⟩
  · intro h
    have hnone := h.absent (Table.get?_next db.importBatches)
    -- a batch of the table is the new one, or was there
    have hget : ∀ {P : Nat → ImportBatch → Prop}, P db.importBatches.next { orgId, accountId } →
        (∀ k b, db.importBatches.get? k = some b → P k b) →
        ∀ k b, (db.importBatches.insert { orgId, accountId }).get? k = some b → P k b := by
      intro P hnew hold k b hb
      rw [Table.get?_insert] at hb
      split at hb
      · subst ‹k = _›
        rw [← Option.some.inj hb]
        exact hnew
      · exact hold k b hb
    refine ⟨hget (hnone _ _).symm h.rows, hget (hnone _ _).symm h.accepted,
      hget (hnone _ _).symm h.pending, ?_⟩
    intro org k hne
    obtain ⟨b, hb, horg⟩ := h.homes org k hne
    exact ⟨b, Table.get?_insert_of_some hb, horg⟩
  · intro _ hs k b hb hclosed
    rw [Table.get?_insert] at hb
    split at hb
    · rw [← Option.some.inj hb] at hclosed
      cases hclosed
    · exact hs k b hb hclosed

end BetterDecision
