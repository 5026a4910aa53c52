import BetterDecision.Proof.Writes
import BetterDecision.Model.Deletes

/-!
# The counters of an import batch

`Counted` says of each batch that its three counters are the numbers of its rows, and
that no row is in a batch that is not there. The counters are written after the rows
and read against them, so it is stated between any numbers and the batches, and a
step proves it for the numbers it leaves behind.
-/

namespace BetterDecision

/-- How many rows of each batch of an org pass each test on their state. -/
abbrev Numbers := Nat × Nat → (ReconciliationState → Bool) → Int

structure Counted (w : Numbers) (batches : Table ImportBatch) : Prop where
  rows : ∀ k b, batches.get? k = some b → b.rowCount = w (b.orgId, k) (fun _ => true)
  accepted : ∀ k b, batches.get? k = some b → b.acceptedCount = w (b.orgId, k) (· == .accepted)
  pending : ∀ k b, batches.get? k = some b → b.pendingCount = w (b.orgId, k) (·.isPending)
  /-- The rows of a batch are of its org. -/
  homes : ∀ orgId k, w (orgId, k) (fun _ => true) ≠ 0 → ∃ b, batches.get? k = some b ∧ b.orgId = orgId

/-- A closed batch has nothing left to review. -/
def Shut (w : Numbers) (batches : Table ImportBatch) : Prop :=
  ∀ k b, batches.get? k = some b → b.status = .closed → w (b.orgId, k) (·.isPending) = 0

/-- An operation that leaves the counters right if they were. -/
structure Recounted (db db' : Db) : Prop where
  counted : Counted (weight db.transactions).2 db.importBatches →
    Counted (weight db'.transactions).2 db'.importBatches
  shut : Counted (weight db.transactions).2 db.importBatches →
    Shut (weight db.transactions).2 db.importBatches → Shut (weight db'.transactions).2 db'.importBatches

theorem Recounted.refl (db : Db) : Recounted db db := ⟨id, fun _ => id⟩

theorem Recounted.trans {db db' db'' : Db} (h : Recounted db db') (k : Recounted db' db'') :
    Recounted db db'' :=
  ⟨fun hc => k.counted (h.counted hc), fun hc hs => k.shut (h.counted hc) (h.shut hc hs)⟩

/-- What moves no row in or out of a batch or its states leaves the counters right. -/
theorem Posted.recounted {rules : Rules} {db db' : Db} (h : Posted rules db db')
    (ho : Orderly rules db.books) : Recounted db db' := by
  obtain ⟨μ, h⟩ := h
  have hnumbers : (weight db'.transactions).2 = (weight db.transactions).2 := by
    rw [h.weight ho, Prod.snd_add, add_zero]
  constructor
  · rw [hnumbers, h.batches]
    exact id
  · rw [hnumbers, h.batches]
    exact fun _ => id

/-! ## Numbers of rows -/

/-- The test of a row that `enrolled` counts. -/
def isEnrolled (key : Nat × Nat) (test : ReconciliationState → Bool) (t : Transaction) : Bool :=
  t.orgId == key.1 && t.importBatchId == some key.2 && test t.reconciliationState

theorem enrolled_eq (t : Transaction) (key : Nat × Nat) (test : ReconciliationState → Bool) :
    enrolled t key test = if isEnrolled key test t then 1 else 0 := by
  simp [enrolled, isEnrolled, and_assoc]

theorem weight_snd (rows : Table Transaction) (key : Nat × Nat) (test : ReconciliationState → Bool) :
    (weight rows).2 key test = rows.total (fun _ t => if isEnrolled key test t then 1 else 0) := by
  rw [weight, Table.total_snd, Table.total_apply, Table.total_apply]
  exact Table.total_congr fun i t _ => enrolled_eq t key test

theorem weight_nonneg (rows : Table Transaction) (key : Nat × Nat) (test : ReconciliationState → Bool) :
    0 ≤ (weight rows).2 key test := by
  rw [weight_snd]
  exact Table.total_ite_nonneg _ _

theorem weight_ne_zero {rows : Table Transaction} {key : Nat × Nat} {test : ReconciliationState → Bool} :
    (weight rows).2 key test ≠ 0 ↔ ∃ i t, rows.get? i = some t ∧ isEnrolled key test t = true := by
  rw [weight_snd, ← Table.total_ite_pos]
  have := Table.total_ite_nonneg rows (fun _ t => isEnrolled key test t)
  omega

/-- A batch's row tells the org of the batch. -/
theorem Counted.home {rows : Table Transaction} {batches : Table ImportBatch}
    (h : Counted (weight rows).2 batches) {i k : Nat} {t : Transaction} {b : ImportBatch}
    (ht : rows.get? i = some t) (hk : t.importBatchId = some k) (hb : batches.get? k = some b) :
    t.orgId = b.orgId := by
  have hne : (weight rows).2 (t.orgId, k) (fun _ => true) ≠ 0 :=
    weight_ne_zero.mpr ⟨i, t, ht, by simp [isEnrolled, hk]⟩
  obtain ⟨b', hb', horg⟩ := h.homes t.orgId k hne
  rw [hb] at hb'
  rw [Option.some.inj hb', horg]

/-! ## Closing a batch -/

/-- What `closeBatchIfComplete` may write to a batch: the right number of pending rows, or
that it is closed, if there are none. -/
def Closing (pending : Int) (b b' : ImportBatch) : Prop :=
  b' = b ∨ b' = { b with pendingCount := pending } ∨ (pending = 0 ∧ b' = { b with status := .closed })

theorem Closing.same {pending : Int} {b b' : ImportBatch} (h : Closing pending b b') :
    b'.orgId = b.orgId ∧ b'.rowCount = b.rowCount ∧ b'.acceptedCount = b.acceptedCount := by
  rcases h with rfl | rfl | ⟨-, rfl⟩ <;> exact ⟨rfl, rfl, rfl⟩

theorem closeBatchIfComplete_eq (db : Db) (k : Nat) (exclude : List Nat) :
    ∃ f, closeBatchIfComplete db k exclude = editBatch db k f ∧
      ∀ b, db.importBatches.get? k = some b → Closing (pendingRowsOf db k exclude) b (f b) := by
  have hsame : db = editBatch db k id := by
    have hid : db.importBatches.modify k id = db.importBatches :=
      Table.mapRows_eq_self fun i a _ => ite_self a
    unfold editBatch
    rw [hid]
  unfold closeBatchIfComplete
  split
  · exact ⟨id, hsame, fun b _ => .inl rfl⟩
  · split
    · exact ⟨id, hsame, fun b _ => .inl rfl⟩
    · split
      · exact ⟨id, hsame, fun b _ => .inl rfl⟩
      · dsimp only
        split
        · exact ⟨_, rfl, fun b _ => .inr (.inl rfl)⟩
        · refine ⟨_, rfl, fun b _ => .inr (.inr ⟨?_, rfl⟩)⟩
          have : pendingRowsOf db k exclude = 0 := by omega
          exact_mod_cast this

theorem counted_editBatch {w : Numbers} {batches : Table ImportBatch} {k : Nat} {f : ImportBatch → ImportBatch}
    (hf : ∀ b, batches.get? k = some b → Closing (w (b.orgId, k) (·.isPending)) b (f b))
    (h : Counted w batches) : Counted w (batches.modify k f) := by
  -- a batch of the new table, and the one it was
  have hget : ∀ j b', (batches.modify k f).get? j = some b' → ∃ b, batches.get? j = some b ∧
      Closing (w (b.orgId, j) (·.isPending)) b b' := by
    intro j b' hb'
    obtain ⟨b, hb, rfl⟩ := Table.get?_modify_eq_some.mp hb'
    refine ⟨b, hb, ?_⟩
    split
    · subst ‹j = k›
      exact hf b hb
    · exact .inl rfl
  refine ⟨?_, ?_, ?_, ?_⟩
  · intro j b' hb'
    obtain ⟨b, hb, hclosing⟩ := hget j b' hb'
    rw [hclosing.same.2.1, hclosing.same.1]
    exact h.rows j b hb
  · intro j b' hb'
    obtain ⟨b, hb, hclosing⟩ := hget j b' hb'
    rw [hclosing.same.2.2, hclosing.same.1]
    exact h.accepted j b hb
  · intro j b' hb'
    obtain ⟨b, hb, rfl | rfl | ⟨-, rfl⟩⟩ := hget j b' hb'
    · exact h.pending j _ hb
    · rfl
    · exact h.pending j b hb
  · intro orgId j hne
    obtain ⟨b, hb, horg⟩ := h.homes orgId j hne
    rw [Table.get?_modify]
    split
    · subst ‹j = k›
      exact ⟨f b, by rw [hb, Option.map_some], (hf b hb).same.1.trans horg⟩
    · exact ⟨b, hb, horg⟩

theorem shut_editBatch {w : Numbers} {batches : Table ImportBatch} {k : Nat} {f : ImportBatch → ImportBatch}
    (hf : ∀ b, batches.get? k = some b → Closing (w (b.orgId, k) (·.isPending)) b (f b))
    (h : Shut w batches) : Shut w (batches.modify k f) := by
  intro j b' hb' hclosed
  obtain ⟨b, hb, rfl⟩ := Table.get?_modify_eq_some.mp hb'
  split at hclosed
  · subst ‹j = k›
    rw [if_pos rfl]
    obtain he | he | ⟨hzero, he⟩ := hf b hb
    · rw [he] at hclosed ⊢
      exact h j b hb hclosed
    · rw [he] at hclosed ⊢
      exact h j b hb hclosed
    · rw [he]
      exact hzero
  · rw [if_neg ‹_›]
    exact h j b hb hclosed

/-- The rows still to be reviewed, told apart by what remains of them. -/
theorem pendingRowsOf_eq {db : Db} {rows : Table Transaction} {batches : Table ImportBatch} {k : Nat}
    {exclude : List Nat} {b : ImportBatch} (h : Counted (weight rows).2 batches)
    (hb : batches.get? k = some b)
    (hrows : rows.total (fun _ t => if t.importBatchId = some k ∧ t.reconciliationState.isPending then (1 : Int) else 0) =
      db.transactions.total (fun i t =>
        if t.importBatchId = some k ∧ t.reconciliationState.isPending ∧ i ∉ exclude then 1 else 0)) :
    (pendingRowsOf db k exclude : Int) = (weight rows).2 (b.orgId, k) (·.isPending) := by
  rw [pendingRowsOf, Table.length_select, weight_snd]
  trans db.transactions.total (fun i t =>
    if t.importBatchId = some k ∧ t.reconciliationState.isPending ∧ i ∉ exclude then (1 : Int) else 0)
  · refine Table.total_congr fun i t _ => ?_
    simp [and_assoc]
  · rw [← hrows]
    refine Table.total_congr fun i t ht => ?_
    by_cases hk : t.importBatchId = some k
    · have := h.home ht hk hb
      simp [isEnrolled, hk, this]
    · simp [isEnrolled, hk]

theorem closeBatchIfComplete_elsewhere (db : Db) (k : Nat) (exclude : List Nat) :
    ∃ importBatches, closeBatchIfComplete db k exclude = { db with importBatches } := by
  obtain ⟨f, hf, -⟩ := closeBatchIfComplete_eq db k exclude
  exact ⟨_, hf⟩

theorem closeBatchIfComplete_keeps {w : Numbers} {db : Db} {k : Nat} {exclude : List Nat}
    (hpending : Counted w db.importBatches → ∀ b, db.importBatches.get? k = some b →
      (pendingRowsOf db k exclude : Int) = w (b.orgId, k) (·.isPending)) (hc : Counted w db.importBatches) :
    Counted w (closeBatchIfComplete db k exclude).importBatches ∧
      (Shut w db.importBatches → Shut w (closeBatchIfComplete db k exclude).importBatches) := by
  obtain ⟨f, hf, hclosing⟩ := closeBatchIfComplete_eq db k exclude
  rw [hf]
  have hclosing' : ∀ b, db.importBatches.get? k = some b → Closing (w (b.orgId, k) (·.isPending)) b (f b) := by
    intro b hb
    rw [← hpending hc b hb]
    exact hclosing b hb
  exact ⟨counted_editBatch hclosing' hc, shut_editBatch hclosing'⟩

end BetterDecision
