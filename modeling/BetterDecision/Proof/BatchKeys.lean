import BetterDecision.Model.BatchKeys
import BetterDecision.Proof.Postings

/-!
# A batch is applied once under its key

Two facts carry it. A request that holds the key, by a claim not committed or by a
row it has deleted, is the only one that does, and the row it deleted is the
committed one and has expired (`HolderKnows`). And the batches that were committed
are one lifetime apart (`BatchHistory`), so the row a request finds alive is the
committed row, however old its snapshot.
-/

namespace BetterDecision

/-! ## What a batch writes -/

/-- The rows named in a list of results are there. -/
def RowsPresent (db : Db) (results : List BatchRowResult) : Prop :=
  ∀ r ∈ results, (db.transactions.get? r.transactionId).isSome

/-- No row of the table went away. -/
def KeepsRows (db db' : Db) : Prop :=
  ∀ i, (db.transactions.get? i).isSome → (db'.transactions.get? i).isSome

theorem RowsPresent.keep {db db' : Db} {results : List BatchRowResult} (h : RowsPresent db results)
    (hk : KeepsRows db db') : RowsPresent db' results := fun r hr => hk _ (h r hr)

/-- A created row is new, and every other row stays. -/
theorem createTransactionNoCommit_present {db db' : Db} {orgId : Nat} {body : TransactionCreate}
    {imported manual : Bool} {row : Row}
    (h : createTransactionNoCommit db orgId body imported manual = .ok (db', row)) :
    KeepsRows db db' ∧ (db'.transactions.get? row.1).isSome := by
  obtain ⟨-, -, hid, rfl⟩ := createTransactionNoCommit_ok h
  have hget : ∀ i, (insertTransaction (db.credited (postingIf (row.2.status = .settled) row.2)) row.2).transactions.get? i =
      if i = db.transactions.next then some row.2 else db.transactions.get? i :=
    fun i => Table.get?_insert db.transactions row.2 i
  refine ⟨fun i hi => ?_, ?_⟩
  · rw [hget]
    split
    · rfl
    · exact hi
  · rw [hget, if_pos hid]
    rfl

/-- One row keeps the rows named so far, and counts as a result or as an error. -/
theorem batchRow_present (orgId : Nat) (failing : List Nat) {s : BatchProgress} (row : BatchTransactionRow)
    (h : RowsPresent s.db s.results) :
    KeepsRows s.db (batchRow orgId failing s row).db ∧
      RowsPresent (batchRow orgId failing s row).db (batchRow orgId failing s row).results ∧
      (batchRow orgId failing s row).results.length + (batchRow orgId failing s row).errors.length =
        s.results.length + s.errors.length + 1 := by
  unfold batchRow BatchProgress.fail
  split
  · exact ⟨fun _ hi => hi, h, by simp [Nat.add_assoc]⟩
  · split
    · rename_i db tx hcreate
      obtain ⟨hkeep, hnew⟩ := createTransactionNoCommit_present hcreate
      refine ⟨hkeep, fun r hr => ?_, ?_⟩
      · rcases List.mem_append.mp hr with hr | hr
        · exact hkeep _ (h r hr)
        · rw [List.mem_singleton.mp hr]
          exact hnew
      · simp only [List.length_append, List.length_singleton]
        omega
    · exact ⟨fun _ hi => hi, h, by simp [Nat.add_assoc]⟩

theorem batchRows_present (orgId : Nat) (failing : List Nat) (rows : List BatchTransactionRow) :
    ∀ {s : BatchProgress}, RowsPresent s.db s.results →
      KeepsRows s.db (rows.foldl (batchRow orgId failing) s).db ∧
      RowsPresent (rows.foldl (batchRow orgId failing) s).db (rows.foldl (batchRow orgId failing) s).results ∧
      (rows.foldl (batchRow orgId failing) s).results.length +
        (rows.foldl (batchRow orgId failing) s).errors.length =
          s.results.length + s.errors.length + rows.length := by
  induction rows with
  | nil => exact fun h => ⟨fun _ hi => hi, h, rfl⟩
  | cons row rows ih =>
    intro s h
    obtain ⟨hkeep, hpresent, hcount⟩ := batchRow_present orgId failing row h
    obtain ⟨hkeep', hpresent', hcount'⟩ := ih hpresent
    refine ⟨fun i hi => hkeep' i (hkeep i hi), hpresent', ?_⟩
    rw [List.foldl_cons, hcount', hcount, List.length_cons]
    omega

/-- **A batch** takes no row away, the rows it reports are there, and it accounts for every
row it was given. -/
theorem createBatch_present {db db' : Db} {orgId : Nat} {body : BatchTransactionsRequest} {failing : List Nat}
    {response : BatchTransactionsResponse} (h : createBatch db orgId body failing = (db', response)) :
    KeepsRows db db' ∧ RowsPresent db' response.results ∧
      response.importedCount + response.errorCount = body.rows.length := by
  obtain ⟨rfl, rfl⟩ := Prod.mk.inj h
  obtain ⟨hkeep, hpresent, hcount⟩ := batchRows_present orgId failing body.rows
    (s := { db }) (fun r hr => by cases hr)
  exact ⟨hkeep, hpresent, by simpa using hcount⟩

/-! ## What a step can do -/

section

variable {η : Type} [DecidableEq η] {requestHash : BatchTransactionsRequest → η} {orgId : Nat}

inductive BatchMove (requestHash : BatchTransactionsRequest → η) (orgId : Nat) (w : BatchWorld η) :
    BatchEvent → BatchWorld η → Prop
  | begin (body : BatchTransactionsRequest) :
      BatchMove requestHash orgId w (.begin body)
        { w with requests := w.requests.insert { body, snapshot := w.key } }
  | tick (seconds : Nat) : BatchMove requestHash orgId w (.tick seconds) { w with clock := w.clock + seconds }
  | look {id : Nat} {r : BatchRequest η} (at_ : w.requests.get? id = some r) (phase : r.phase = .started) :
      BatchMove requestHash orgId w (.look id) (w.put id (lookAt requestHash w.clock r))
  | delete {id : Nat} {r : BatchRequest η} {existing : TransactionBatchKey η}
      (at_ : w.requests.get? id = some r) (phase : r.phase = .expired) (found : r.existing = some existing)
      (free : ¬ w.RowHeld id existing.id) :
      BatchMove requestHash orgId w (.delete id)
        (w.put id { r with phase := .claiming (w.deleteKey (some existing.id)) })
  | duplicate {id : Nat} {r : BatchRequest η} (at_ : w.requests.get? id = some r)
      (phase : r.phase = .claiming none) (there : w.key.isSome) :
      BatchMove requestHash orgId w (.insert id)
        { (w.put id { r with phase := .rolledBack }) with nextId := w.nextId + 1 }
  | claim {id : Nat} {r : BatchRequest η} {deleted : Option (TransactionBatchKey η)}
      (at_ : w.requests.get? id = some r) (phase : r.phase = .claiming deleted) (free : ¬ w.KeyHeld id)
      (absent : w.key = none ∨ deleted ≠ none) :
      BatchMove requestHash orgId w (.insert id)
        { (w.put id { r with phase := .claimed deleted w.nextId }) with nextId := w.nextId + 1 }
  | write {id : Nat} {r : BatchRequest η} {deleted : Option (TransactionBatchKey η)} {claimId : Nat}
      {failing : List Nat} {db : Db} {response : BatchTransactionsResponse}
      (at_ : w.requests.get? id = some r) (phase : r.phase = .claimed deleted claimId)
      (rows : createBatch w.db orgId r.body failing = (db, response)) :
      BatchMove requestHash orgId w (.write id failing)
        (w.put id
          { r with
            phase := .written deleted
              { id := claimId, requestHash := requestHash r.body, createdAt := r.now, response := some response }
              db response })
  | commit {id : Nat} {r : BatchRequest η} {deleted : Option (TransactionBatchKey η)}
      {claim : TransactionBatchKey η} {db : Db} {response : BatchTransactionsResponse}
      (at_ : w.requests.get? id = some r) (phase : r.phase = .written deleted claim db response) :
      BatchMove requestHash orgId w (.commit id)
        { (w.put id { r with phase := .answered (.ok response) }) with
          db, key := some claim
          applied := { body := r.body, key := claim, response, took := deleted.map (·.id) } :: w.applied }
  | relook {id : Nat} {r : BatchRequest η} (at_ : w.requests.get? id = some r) (phase : r.phase = .rolledBack) :
      BatchMove requestHash orgId w (.relook id) (w.put id (relookAt requestHash w.key r))
  | crash {id : Nat} {r : BatchRequest η} (at_ : w.requests.get? id = some r) :
      BatchMove requestHash orgId w (.crash id)
        (w.put id { r with phase := .answered (.error (.runtime "crashed")) })

theorem batchStep_move {w w' : BatchWorld η} {ev : BatchEvent}
    (h : batchStep requestHash orgId w ev = .ok w') : BatchMove requestHash orgId w ev w' := by
  cases ev with
  | begin body => exact Except.ok.inj h ▸ .begin body
  | tick seconds => exact Except.ok.inj h ▸ .tick seconds
  | look id =>
    obtain ⟨r, hr, h⟩ := bind_eq_ok.mp h
    split at h
    · exact Except.ok.inj h ▸ .look (found_eq_ok.mp hr) ‹_›
    · cases h
  | delete id =>
    obtain ⟨r, hr, h⟩ := bind_eq_ok.mp h
    split at h
    · obtain ⟨existing, hex, h⟩ := bind_eq_ok.mp h
      obtain ⟨_, hfree, h⟩ := bind_eq_ok.mp h
      exact Except.ok.inj h ▸ .delete (found_eq_ok.mp hr) ‹_› (found_eq_ok.mp hex) (refuse_eq_ok.mp hfree)
    · cases h
  | insert id =>
    obtain ⟨r, hr, h⟩ := bind_eq_ok.mp h
    split at h
    · rename_i deleted hphase
      obtain ⟨_, hfree, h⟩ := bind_eq_ok.mp h
      split at h
      · rename_i hdup
        rw [Option.isNone_iff_eq_none.mp hdup.2] at hphase
        exact Except.ok.inj h ▸ .duplicate (found_eq_ok.mp hr) hphase hdup.1
      · rename_i hdup
        refine Except.ok.inj h ▸ .claim (found_eq_ok.mp hr) hphase (refuse_eq_ok.mp hfree) ?_
        rcases hkey : w.key with _ | key
        · exact .inl rfl
        · refine .inr fun hnone => hdup ⟨by rw [hkey]; rfl, by rw [hnone]; rfl⟩
    · cases h
  | write id failing =>
    obtain ⟨r, hr, h⟩ := bind_eq_ok.mp h
    split at h
    · exact Except.ok.inj h ▸ .write (found_eq_ok.mp hr) ‹_› rfl
    · cases h
  | commit id =>
    obtain ⟨r, hr, h⟩ := bind_eq_ok.mp h
    split at h
    · exact Except.ok.inj h ▸ .commit (found_eq_ok.mp hr) ‹_›
    · cases h
  | relook id =>
    obtain ⟨r, hr, h⟩ := bind_eq_ok.mp h
    split at h
    · exact Except.ok.inj h ▸ .relook (found_eq_ok.mp hr) ‹_›
    · cases h
  | crash id =>
    obtain ⟨r, hr, h⟩ := bind_eq_ok.mp h
    split at h
    · cases h
    · exact Except.ok.inj h ▸ .crash (found_eq_ok.mp hr)

end

/-! ## What is committed -/

section

variable {η : Type} {requestHash : BatchTransactionsRequest → η} {orgId : Nat}

/-- The committed batches, newest first, and the committed row among them. -/
structure BatchHistory (requestHash : BatchTransactionsRequest → η) (w : BatchWorld η) : Prop where
  head : w.key = w.applied.head?.map (·.key)
  spaced : w.applied.Pairwise fun newer older =>
    older.key.id < newer.key.id ∧ older.key.createdAt + keyTtl ≤ newer.key.createdAt
  past : ∀ a ∈ w.applied, a.key.createdAt ≤ w.clock
  ids : ∀ a ∈ w.applied, a.key.id < w.nextId
  hashed : ∀ a ∈ w.applied, a.key.requestHash = requestHash a.body ∧ a.key.response = some a.response
  present : ∀ a ∈ w.applied, RowsPresent w.db a.response.results
  /-- No two batches replaced one row. -/
  tookOnce : (w.applied.map (·.took)).Nodup
  tookOlder : ∀ a ∈ w.applied, ∀ i, a.took = some i → i < a.key.id
  /-- The committed row has not been replaced. -/
  tookGone : ∀ a ∈ w.applied, a.took ≠ w.key.map (·.id)
  replaced : ∀ a ∈ w.applied, w.key ≠ some a.key → ∃ b ∈ w.applied, b.took = some a.key.id

namespace BatchHistory

variable {w : BatchWorld η} (h : BatchHistory requestHash w)
include h

theorem key_mem {key : TransactionBatchKey η} (hkey : w.key = some key) : ∃ a ∈ w.applied, a.key = key := by
  rw [h.head, Option.map_eq_some_iff] at hkey
  obtain ⟨a, ha, rfl⟩ := hkey
  exact ⟨a, List.mem_of_mem_head? ha, rfl⟩

/-- A committed batch is the last one, or a lifetime older. -/
theorem key_or_older {a : AppliedBatch η} (ha : a ∈ w.applied) :
    w.key = some a.key ∨
      ∃ key, w.key = some key ∧ a.key.id < key.id ∧ a.key.createdAt + keyTtl ≤ key.createdAt := by
  have hhead := h.head
  have hspaced := h.spaced
  cases hlist : w.applied with
  | nil => rw [hlist] at ha; cases ha
  | cons b rest =>
    rw [hlist] at ha hhead hspaced
    rcases List.mem_cons.mp ha with rfl | ha
    · exact .inl hhead
    · obtain ⟨hid, hage⟩ := (List.pairwise_cons.mp hspaced).1 a ha
      exact .inr ⟨b.key, hhead, hid, hage⟩

/-- **A batch whose lifetime is not over is the last one.** -/
theorem key_of_alive {a : AppliedBatch η} (ha : a ∈ w.applied) (halive : ¬ a.key.Expired w.clock) :
    w.key = some a.key := by
  rcases h.key_or_older ha with hkey | ⟨key, hkey, -, hage⟩
  · exact hkey
  · obtain ⟨b, hb, rfl⟩ := h.key_mem hkey
    have hpast := h.past b hb
    unfold TransactionBatchKey.Expired at halive
    omega

/-- Among committed rows the id says which one it is. -/
theorem key_of_id {a : AppliedBatch η} (ha : a ∈ w.applied) {key : TransactionBatchKey η} (hkey : w.key = some key)
    (hid : key.id = a.key.id) : key = a.key := by
  rcases h.key_or_older ha with hkey' | ⟨key', hkey', hlt, -⟩
  · exact Option.some.inj (hkey.symm.trans hkey')
  · obtain rfl := Option.some.inj (hkey.symm.trans hkey')
    omega

/-- The history reads neither the requests nor how far the clock and the ids have gone. -/
theorem later {clock : Int} {nextId : Nat} (hclock : w.clock ≤ clock) (hnext : w.nextId ≤ nextId)
    (requests : Table (BatchRequest η)) : BatchHistory requestHash { w with clock, nextId, requests } where
  head := h.head
  spaced := h.spaced
  past a ha := (h.past a ha).trans hclock
  ids a ha := (h.ids a ha).trans_le hnext
  hashed := h.hashed
  present := h.present
  tookOnce := h.tookOnce
  tookOlder := h.tookOlder
  tookGone := h.tookGone
  replaced := h.replaced

end BatchHistory

/-- A claim that can be committed: the row it replaces is the committed one and has
expired, and its id is above every id committed. -/
structure ClaimReady (w : BatchWorld η) (now : Int) (deleted : Option (TransactionBatchKey η)) (id : Nat) : Prop where
  past : now ≤ w.clock
  deleted : w.key = deleted
  expired : ∀ key, w.key = some key → key.Expired now
  next : id < w.nextId
  above : ∀ a ∈ w.applied, a.key.id < id

/-- **A commit keeps the history.** -/
theorem BatchHistory.commit {w : BatchWorld η} (h : BatchHistory requestHash w) {now : Int}
    {deleted : Option (TransactionBatchKey η)} {a : AppliedBatch η} {db : Db} {failing : List Nat}
    (hready : ClaimReady w now deleted a.key.id) (hcreated : a.key.createdAt = now)
    (hhashed : a.key.requestHash = requestHash a.body ∧ a.key.response = some a.response)
    (htook : a.took = deleted.map (·.id)) (hrows : createBatch w.db orgId a.body failing = (db, a.response))
    (requests : Table (BatchRequest η)) :
    BatchHistory requestHash { w with db, requests, key := some a.key, applied := a :: w.applied } := by
  obtain ⟨hkeep, hpresent, -⟩ := createBatch_present hrows
  -- every committed key is a lifetime older than the clock of this one
  have hage : ∀ b ∈ w.applied, b.key.createdAt + keyTtl ≤ now := by
    intro b hb
    rcases h.key_or_older hb with hkey | ⟨key, hkey, -, hlt⟩
    · have hexp := hready.expired _ hkey
      unfold TransactionBatchKey.Expired at hexp
      omega
    · have hexp := hready.expired _ hkey
      unfold TransactionBatchKey.Expired at hexp
      unfold keyTtl keyTtlHours at hlt hexp ⊢
      omega
  have htook' : a.took = w.key.map (·.id) := by rw [htook, hready.deleted]
  refine
    { head := rfl
      spaced := List.pairwise_cons.mpr ⟨fun b hb => ⟨hready.above b hb, hcreated ▸ hage b hb⟩, h.spaced⟩
      past := List.forall_mem_cons.mpr ⟨hcreated ▸ hready.past, h.past⟩
      ids := List.forall_mem_cons.mpr ⟨hready.next, h.ids⟩
      hashed := List.forall_mem_cons.mpr ⟨hhashed, h.hashed⟩
      present := List.forall_mem_cons.mpr ⟨hpresent, fun b hb => (h.present b hb).keep hkeep⟩
      tookOnce := ?_
      tookOlder := List.forall_mem_cons.mpr ⟨fun i hi => ?_, h.tookOlder⟩
      tookGone := List.forall_mem_cons.mpr ⟨fun htaken => ?_, fun b hb htaken => ?_⟩
      replaced := List.forall_mem_cons.mpr ⟨fun hne => absurd rfl hne, fun b hb _ => ?_⟩ }
  · rw [List.map_cons, List.nodup_cons]
    refine ⟨fun hmem => ?_, h.tookOnce⟩
    obtain ⟨b, hb, htaken⟩ := List.mem_map.mp hmem
    exact h.tookGone b hb (htaken.trans htook')
  · rw [htook', Option.map_eq_some_iff] at hi
    obtain ⟨key, hkey, rfl⟩ := hi
    obtain ⟨b, hb, rfl⟩ := h.key_mem hkey
    exact hready.above b hb
  · rw [htook', Option.map_some, Option.map_eq_some_iff] at htaken
    obtain ⟨key, hkey, hid⟩ := htaken
    obtain ⟨b, hb, rfl⟩ := h.key_mem hkey
    have habove := hready.above b hb
    omega
  · have holder : a.key.id < b.key.id := h.tookOlder b hb _ htaken
    have habove := hready.above b hb
    omega
  · by_cases hkey : w.key = some b.key
    · exact ⟨a, List.mem_cons_self, by rw [htook', hkey, Option.map_some]⟩
    · obtain ⟨c, hc, htaken⟩ := h.replaced b hb hkey
      exact ⟨c, List.mem_cons_of_mem _ hc, htaken⟩

/-! ## What a request knows -/

/-- It holds the key: by a claim that is in, or by the row it has deleted. -/
def BatchPhase.Holds (p : BatchPhase η) : Prop := p.HasClaim ∨ p.deleted.isSome

/-- The row it found expired is not the committed one any more. -/
def OutOfForce (w : BatchWorld η) (r : BatchRequest η) : Prop :=
  ∀ key, r.snapshot = some key → key.Expired r.now → w.key ≠ some key

def Knows (requestHash : BatchTransactionsRequest → η) (orgId : Nat) (w : BatchWorld η) (r : BatchRequest η) : Prop :=
  match r.phase with
  | .started => True
  | .expired => r.now ≤ w.clock ∧ ∃ a ∈ w.applied, r.snapshot = some a.key ∧ r.existing = some a.key ∧ a.key.Expired r.now
  | .claiming none => r.now ≤ w.clock ∧ OutOfForce w r
  | .claiming (some key) => r.now ≤ w.clock ∧ w.key = some key ∧ key.Expired r.now
  | .claimed deleted id => ClaimReady w r.now deleted id
  | .written deleted claim db response =>
    ClaimReady w r.now deleted claim.id ∧ claim.createdAt = r.now ∧
      claim.requestHash = requestHash r.body ∧ claim.response = some response ∧
      ∃ failing, createBatch w.db orgId r.body failing = (db, response)
  | .rolledBack => w.key.isSome ∧ OutOfForce w r
  | .answered outcome => outcome = .error (.runtime "crashed") ∨ OutOfForce w r

structure BatchInv (requestHash : BatchTransactionsRequest → η) (orgId : Nat) (Sent : BatchTransactionsRequest → Prop)
    (w : BatchWorld η) : Prop where
  history : BatchHistory requestHash w
  knows : ∀ i r, w.requests.get? i = some r → Knows requestHash orgId w r
  /-- A snapshot holds a row that was committed at some time. -/
  snapshots : ∀ i r, w.requests.get? i = some r → ∀ key, r.snapshot = some key → ∃ a ∈ w.applied, a.key = key
  /-- One request holds the key. -/
  one : ∀ i j r s, w.requests.get? i = some r → w.requests.get? j = some s →
    r.phase.Holds → s.phase.Holds → i = j
  sent : ∀ i r, w.requests.get? i = some r → Sent r.body
  sentApplied : ∀ a ∈ w.applied, Sent a.body

theorem ClaimReady.later {w : BatchWorld η} {now : Int} {deleted : Option (TransactionBatchKey η)} {id : Nat}
    (h : ClaimReady w now deleted id) {clock : Int} {nextId : Nat} (hclock : w.clock ≤ clock)
    (hnext : w.nextId ≤ nextId) (requests : Table (BatchRequest η)) :
    ClaimReady { w with clock, nextId, requests } now deleted id :=
  ⟨h.past.trans hclock, h.deleted, h.expired, h.next.trans_le hnext, h.above⟩

/-- What a request knows stays true while nothing is committed. -/
theorem Knows.later {w : BatchWorld η} {r : BatchRequest η} (h : Knows requestHash orgId w r) {clock : Int}
    {nextId : Nat} (hclock : w.clock ≤ clock) (hnext : w.nextId ≤ nextId) (requests : Table (BatchRequest η)) :
    Knows requestHash orgId { w with clock, nextId, requests } r := by
  unfold Knows at h ⊢
  split
  · trivial
  · rename_i hphase
    rw [hphase] at h
    exact ⟨h.1.trans hclock, h.2⟩
  · rename_i hphase
    rw [hphase] at h
    exact ⟨h.1.trans hclock, h.2⟩
  · rename_i hphase
    rw [hphase] at h
    exact ⟨h.1.trans hclock, h.2⟩
  · rename_i hphase
    rw [hphase] at h
    exact ClaimReady.later h hclock hnext _
  · rename_i hphase
    rw [hphase] at h
    exact ⟨h.1.later hclock hnext _, h.2⟩
  · rename_i hphase
    rw [hphase] at h
    exact h
  · rename_i hphase
    rw [hphase] at h
    exact h

theorem BatchPhase.not_holds_of {p : BatchPhase η} (h : ¬ p.HasClaim) (hd : p.deleted = none) : ¬ p.Holds := by
  rintro (hclaim | hdel)
  · exact h hclaim
  · rw [hd] at hdel
    cases hdel

/-- A request that does not hold the key knows nothing a commit could undo, if the new
row's id is above every committed one. -/
theorem Knows.after_commit {w : BatchWorld η} {r : BatchRequest η} (h : Knows requestHash orgId w r)
    (hnot : ¬ r.phase.Holds) (hsnap : ∀ key, r.snapshot = some key → ∃ a ∈ w.applied, a.key = key)
    {b : AppliedBatch η} (habove : ∀ a ∈ w.applied, a.key.id < b.key.id) (db : Db)
    (requests : Table (BatchRequest η)) :
    Knows requestHash orgId { w with db, requests, key := some b.key, applied := b :: w.applied } r := by
  have hout : OutOfForce { w with db, requests, key := some b.key, applied := b :: w.applied } r := by
    intro key hkey _ hnew
    obtain ⟨a, ha, rfl⟩ := hsnap key hkey
    have hlt := habove a ha
    rw [Option.some.inj hnew] at hlt
    exact lt_irrefl _ hlt
  unfold Knows at h ⊢
  split
  · trivial
  · rename_i hphase
    rw [hphase] at h
    obtain ⟨hnow, a, ha, hfound⟩ := h
    exact ⟨hnow, a, List.mem_cons_of_mem _ ha, hfound⟩
  · rename_i hphase
    rw [hphase] at h
    exact ⟨h.1, hout⟩
  · rename_i hphase
    exact absurd (.inr (by rw [hphase]; rfl)) hnot
  · rename_i hphase
    exact absurd (.inl (by rw [hphase]; trivial)) hnot
  · rename_i hphase
    exact absurd (.inl (by rw [hphase]; trivial)) hnot
  · exact ⟨rfl, hout⟩
  · exact .inr hout

namespace BatchInv

variable {Sent : BatchTransactionsRequest → Prop} {w : BatchWorld η}

/-- One request moves on, and nothing is committed. -/
theorem put (h : BatchInv requestHash orgId Sent w) {id : Nat} {r : BatchRequest η}
    (hr : w.requests.get? id = some r) (r' : BatchRequest η) (hbody : r'.body = r.body) (hsnap : r'.snapshot = r.snapshot) {nextId : Nat}
    (hnext : w.nextId ≤ nextId) (hknows : Knows requestHash orgId { w with nextId } r')
    (hholds : r'.phase.Holds → ∀ j s, j ≠ id → w.requests.get? j = some s → ¬ s.phase.Holds) :
    BatchInv requestHash orgId Sent { w.put id r' with nextId } := by
  have hget : ∀ i s, (w.put id r').requests.get? i = some s →
      (i = id ∧ s = r') ∨ (i ≠ id ∧ w.requests.get? i = some s) := by
    intro i s hs
    obtain ⟨s', hs', rfl⟩ := Table.get?_modify_eq_some.mp hs
    by_cases hi : i = id
    · exact .inl ⟨hi, if_pos hi⟩
    · exact .inr ⟨hi, by rw [if_neg hi]; exact hs'⟩
  refine
    { history := h.history.later le_rfl hnext _
      knows := fun i s hs => ?_
      snapshots := fun i s hs => ?_
      one := fun i j s t hs ht hsh hth => ?_
      sent := fun i s hs => ?_
      sentApplied := h.sentApplied }
  · rcases hget i s hs with ⟨rfl, rfl⟩ | ⟨-, hs⟩
    · exact hknows.later le_rfl le_rfl _
    · exact (h.knows i s hs).later le_rfl hnext _
  · rcases hget i s hs with ⟨rfl, rfl⟩ | ⟨-, hs⟩
    · rw [hsnap]
      exact h.snapshots i r hr
    · exact h.snapshots i s hs
  · rcases hget i s hs with ⟨rfl, rfl⟩ | ⟨hi, hs'⟩
    · rcases hget j t ht with ⟨rfl, rfl⟩ | ⟨hj, ht'⟩
      · rfl
      · exact absurd hth (hholds hsh j t hj ht')
    · rcases hget j t ht with ⟨rfl, rfl⟩ | ⟨-, ht'⟩
      · exact absurd hsh (hholds hth i s hi hs')
      · exact h.one i j s t hs' ht' hsh hth
  · rcases hget i s hs with ⟨rfl, rfl⟩ | ⟨-, hs⟩
    · rw [hbody]
      exact h.sent i r hr
    · exact h.sent i s hs

/-- A request that holds the key keeps the others out. -/
theorem others (h : BatchInv requestHash orgId Sent w) {id : Nat} {r : BatchRequest η}
    (hr : w.requests.get? id = some r) (hholds : r.phase.Holds) :
    ∀ j s, j ≠ id → w.requests.get? j = some s → ¬ s.phase.Holds :=
  fun j s hj hs hsh => hj (h.one j id s r hs hr hsh hholds)

/-- Who holds the key without a claim has deleted the committed row. -/
theorem key_of_deleted (h : BatchInv requestHash orgId Sent w) {id : Nat} {r : BatchRequest η}
    (hr : w.requests.get? id = some r) (hholds : r.phase.Holds) : w.key = r.phase.deleted := by
  have hknows := h.knows id r hr
  unfold Knows at hknows
  rcases hphase : r.phase with _ | _ | (_ | key) | ⟨deleted, claimId⟩ | ⟨deleted, claim, db, response⟩ | _ | outcome
  all_goals rw [hphase] at hknows hholds
  · exact absurd hholds (BatchPhase.not_holds_of not_false rfl)
  · exact absurd hholds (BatchPhase.not_holds_of not_false rfl)
  · exact absurd hholds (BatchPhase.not_holds_of not_false rfl)
  · exact hknows.2.1
  · exact hknows.deleted
  · exact hknows.1.deleted
  · exact absurd hholds (BatchPhase.not_holds_of not_false rfl)
  · exact absurd hholds (BatchPhase.not_holds_of not_false rfl)

/-- **One step keeps what the requests know.** -/
theorem move [DecidableEq η] (h : BatchInv requestHash orgId Sent w) {w' : BatchWorld η} {ev : BatchEvent}
    (hev : ∀ body, ev = .begin body → Sent body) (hm : BatchMove requestHash orgId w ev w') :
    BatchInv requestHash orgId Sent w' := by
  cases hm with
  | begin body =>
    have hget : ∀ i s, (w.requests.insert { body, snapshot := w.key }).get? i = some s →
        s = { body, snapshot := w.key } ∨ w.requests.get? i = some s := by
      intro i s hs
      rw [Table.get?_insert] at hs
      split at hs
      · exact .inl (Option.some.inj hs).symm
      · exact .inr hs
    refine
      { history := h.history.later le_rfl le_rfl _
        knows := fun i s hs => ?_
        snapshots := fun i s hs => ?_
        one := fun i j s t hs ht hsh hth => ?_
        sent := fun i s hs => ?_
        sentApplied := h.sentApplied }
    · rcases hget i s hs with rfl | hs
      · trivial
      · exact (h.knows i s hs).later le_rfl le_rfl _
    · rcases hget i s hs with rfl | hs
      · exact fun key hkey => h.history.key_mem hkey
      · exact h.snapshots i s hs
    · rcases hget i s hs with rfl | hs
      · exact absurd hsh (BatchPhase.not_holds_of not_false rfl)
      · rcases hget j t ht with rfl | ht
        · exact absurd hth (BatchPhase.not_holds_of not_false rfl)
        · exact h.one i j s t hs ht hsh hth
    · rcases hget i s hs with rfl | hs
      · exact hev body rfl
      · exact h.sent i s hs
  | tick seconds =>
    have hclock : w.clock ≤ w.clock + seconds := by omega
    exact ⟨h.history.later hclock le_rfl _, fun i s hs => (h.knows i s hs).later hclock le_rfl _,
      h.snapshots, h.one, h.sent, h.sentApplied⟩
  | @look id r at_ phase =>
    unfold lookAt
    split
    · rename_i hnone
      refine h.put at_ _ (by rfl) (by rfl) le_rfl ⟨le_rfl, fun key hkey => ?_⟩
        fun hholds => absurd hholds (BatchPhase.not_holds_of not_false rfl)
      rw [hnone] at hkey
      cases hkey
    · rename_i existing hsome
      obtain ⟨a, ha, rfl⟩ := h.snapshots id r at_ existing hsome
      split
      · rename_i hexp
        exact h.put at_ _ (by rfl) (by rfl) le_rfl ⟨le_rfl, a, ha, hsome, rfl, hexp⟩
          fun hholds => absurd hholds (BatchPhase.not_holds_of not_false rfl)
      · rename_i hexp
        refine h.put at_ _ (by rfl) (by rfl) le_rfl (.inr fun key hkey hexp' => ?_)
          fun hholds => absurd hholds (BatchPhase.not_holds_of not_false rfl)
        obtain rfl := Option.some.inj (hsome.symm.trans hkey)
        exact absurd hexp' hexp
  | @delete id r existing at_ phase found free =>
    have hknows := h.knows id r at_
    unfold Knows at hknows
    rw [phase] at hknows
    obtain ⟨hnow, a, ha, hsnap, hex, hexp⟩ := hknows
    obtain rfl : a.key = existing := Option.some.inj (hex.symm.trans found)
    rcases hdel : w.deleteKey (some a.key.id) with _ | key
    · -- nothing was deleted: the row that expired is not the committed one
      refine h.put at_ _ (by rfl) (by rfl) le_rfl ⟨hnow, fun key hkey _ hin => ?_⟩
        fun hholds => absurd hholds (BatchPhase.not_holds_of not_false rfl)
      obtain rfl := Option.some.inj (hsnap.symm.trans hkey)
      have hin : w.key = some a.key := hin
      rw [BatchWorld.deleteKey, hin] at hdel
      simp at hdel
    · obtain ⟨hkey, hid⟩ := Option.filter_eq_some_iff.mp hdel
      obtain rfl : key = a.key := h.history.key_of_id ha hkey (by simpa using hid)
      refine h.put at_ _ (by rfl) (by rfl) le_rfl ⟨hnow, hkey, hexp⟩ fun _ j s hj hs hsh => free ?_
      refine ⟨(j, s), Table.mem_rows.mpr hs, hj, ?_⟩
      rw [← h.key_of_deleted hs hsh, hkey, Option.map_some]
  | @duplicate id r at_ phase there =>
    have hknows := h.knows id r at_
    unfold Knows at hknows
    rw [phase] at hknows
    exact h.put at_ _ (by rfl) (by rfl) (Nat.le_succ _) ⟨there, hknows.2⟩
      fun hholds => absurd hholds (BatchPhase.not_holds_of not_false rfl)
  | @claim id r deleted at_ phase free absent =>
    have hknows := h.knows id r at_
    unfold Knows at hknows
    rw [phase] at hknows
    have hready : ClaimReady { w with nextId := w.nextId + 1 } r.now deleted w.nextId := by
      rcases deleted with _ | key
      · have hkey : w.key = none := absent.resolve_right (by simp)
        exact ⟨hknows.1, hkey, by simp [hkey], Nat.lt_succ_self _, h.history.ids⟩
      · refine ⟨hknows.1, hknows.2.1, fun key' hkey' => ?_, Nat.lt_succ_self _, h.history.ids⟩
        obtain rfl := Option.some.inj (hknows.2.1.symm.trans hkey')
        exact hknows.2.2
    exact h.put at_ _ (by rfl) (by rfl) (Nat.le_succ _) hready
      fun _ j s hj hs hsh => free ⟨(j, s), Table.mem_rows.mpr hs, hj, hsh⟩
  | @write id r deleted claimId failing db response at_ phase rows =>
    have hknows := h.knows id r at_
    unfold Knows at hknows
    rw [phase] at hknows
    exact h.put at_ _ (by rfl) (by rfl) le_rfl ⟨hknows, rfl, rfl, rfl, failing, rows⟩
      fun _ => h.others at_ (.inl (by rw [phase]; trivial))
  | @commit id r deleted claim db response at_ phase =>
    have hknows := h.knows id r at_
    unfold Knows at hknows
    rw [phase] at hknows
    obtain ⟨hready, hcreated, hhash, hresp, failing, hrows⟩ := hknows
    have hothers := h.others at_ (.inl (by rw [phase]; trivial))
    have hget : ∀ i s, (w.put id { r with phase := .answered (.ok response) }).requests.get? i = some s →
        (s = { r with phase := .answered (.ok response) }) ∨ (i ≠ id ∧ w.requests.get? i = some s) := by
      intro i s hs
      obtain ⟨s', hs', rfl⟩ := Table.get?_modify_eq_some.mp hs
      by_cases hi : i = id
      · exact .inl (if_pos hi)
      · exact .inr ⟨hi, by rw [if_neg hi]; exact hs'⟩
    have hnot : ∀ s : BatchRequest η, s = { r with phase := .answered (.ok response) } → ¬ s.phase.Holds := by
      intro s hs
      rw [hs]
      exact BatchPhase.not_holds_of not_false rfl
    refine
      { history := 
          h.history.commit (a := { body := r.body, key := claim, response, took := deleted.map (·.id) })
            hready hcreated ⟨hhash, hresp⟩ rfl hrows _
        knows := fun i s hs => ?_
        snapshots := fun i s hs key hkey => ?_
        one := fun i j s t hs ht hsh hth => ?_
        sent := fun i s hs => ?_
        sentApplied := List.forall_mem_cons.mpr ⟨h.sent id r at_, h.sentApplied⟩ }
    · rcases hget i s hs with rfl | ⟨hi, hs⟩
      · refine .inr fun key hkey _ hnew => ?_
        obtain ⟨a, ha, rfl⟩ := h.snapshots id r at_ key hkey
        have hlt := hready.above a ha
        rw [Option.some.inj hnew] at hlt
        exact lt_irrefl _ hlt
      · exact (h.knows i s hs).after_commit (hothers i s hi hs) (h.snapshots i s hs)
          (b := { body := r.body, key := claim, response, took := deleted.map (·.id) }) hready.above db _
    · obtain ⟨a, ha, he⟩ : ∃ a ∈ w.applied, a.key = key := by
        rcases hget i s hs with rfl | ⟨-, hs⟩
        · exact h.snapshots id r at_ key hkey
        · exact h.snapshots i s hs key hkey
      exact ⟨a, List.mem_cons_of_mem _ ha, he⟩
    · rcases hget i s hs with hs | ⟨hi, hs⟩
      · exact absurd hsh (hnot s hs)
      · exact absurd hsh (hothers i s hi hs)
    · rcases hget i s hs with rfl | ⟨-, hs⟩
      · exact h.sent id r at_
      · exact h.sent i s hs
  | @relook id r at_ phase =>
    have hknows := h.knows id r at_
    unfold Knows at hknows
    rw [phase] at hknows
    obtain ⟨hthere, hout⟩ := hknows
    obtain ⟨key, hkey⟩ := Option.isSome_iff_exists.mp hthere
    rw [hkey]
    exact h.put at_ _ (by rfl) (by rfl) le_rfl (.inr hout) fun hholds => absurd hholds (BatchPhase.not_holds_of not_false rfl)
  | @crash id r at_ =>
    exact h.put at_ _ (by rfl) (by rfl) le_rfl (.inl rfl) fun hholds => absurd hholds (BatchPhase.not_holds_of not_false rfl)

end BatchInv

theorem batchInv_init (Sent : BatchTransactionsRequest → Prop) (db : Db) (clock : Int) :
    BatchInv requestHash orgId Sent { clock, db } where
  history :=
    { head := rfl
      spaced := .nil
      past := by intro a ha; cases ha
      ids := by intro a ha; cases ha
      hashed := by intro a ha; cases ha
      present := by intro a ha; cases ha
      tookOnce := .nil
      tookOlder := by intro a ha; cases ha
      tookGone := by intro a ha; cases ha
      replaced := by intro a ha; cases ha }
  knows := by intro i r h; simp at h
  snapshots := by intro i r h; simp at h
  one := by intro i j r s h; simp at h
  sent := by intro i r h; simp at h
  sentApplied := by intro a ha; cases ha

theorem batchInv_run [DecidableEq η] (db : Db) (clock : Int) (calls : List BatchEvent) :
    BatchInv requestHash orgId (fun body => .begin body ∈ calls) (run (batchStep requestHash orgId) { clock, db } calls) :=
  run_invariant_of_mem calls
    (fun _ _ _ hev h hs => h.move (fun _ he => he ▸ hev) (batchStep_move hs)) (batchInv_init _ db clock)

/-! ## Once per key and lifetime -/

/-- The step answers the request, which was not answered before. -/
def Answers (w w' : BatchWorld η) (id : Nat) (body : BatchTransactionsRequest)
    (outcome : Result BatchTransactionsResponse) : Prop :=
  (∃ r, w.requests.get? id = some r ∧ r.body = body ∧ ∀ o, r.phase ≠ .answered o) ∧
    ∃ r, w'.requests.get? id = some r ∧ r.phase = .answered outcome

/-- What holds of the key in every state reached. -/
structure AppliedOnce [DecidableEq η] (requestHash : BatchTransactionsRequest → η) (orgId : Nat)
    (w : BatchWorld η) : Prop where
  /-- The batches committed under the key are a lifetime apart. -/
  apart : w.applied.Pairwise fun newer older => older.key.createdAt + keyTtl ≤ newer.key.createdAt
  /-- A step that changes what is committed writes one batch, when no key is alive. -/
  writes : ∀ ev w', batchStep requestHash orgId w ev = .ok w' →
    (w'.db = w.db ∧ w'.key = w.key ∧ w'.applied = w.applied) ∨
      ∃ a failing, w'.applied = a :: w.applied ∧ w'.key = some a.key ∧
        createBatch w.db orgId a.body failing = (w'.db, a.response) ∧ ∀ key, w.key = some key → key.Expired w.clock
  /-- The committed row is the last batch's, with its response, whose rows are there. -/
  committed : ∀ key, w.key = some key →
    ∃ a ∈ w.applied.head?, a.key = key ∧ key.response = some a.response ∧ RowsPresent w.db a.response.results
  /-- While the last batch's key is alive every answer is the first response or the
  conflict, and nothing is written. -/
  answered : ∀ ev w' a id body outcome, batchStep requestHash orgId w ev = .ok w' → w.applied.head? = some a →
    ¬ a.key.Expired w.clock → Answers w w' id body outcome → outcome ≠ .error (.runtime "crashed") →
      w'.db = w.db ∧ w'.key = w.key ∧
        (body = a.body → outcome = .ok { a.response with replayed := true }) ∧
        (body ≠ a.body → outcome = .error differentBatch)
  /-- Whoever found a key expired, and did not fail, saw it replaced: by one batch. -/
  takenOver : ∀ i r outcome key, w.requests.get? i = some r → r.phase = .answered outcome →
    outcome ≠ .error (.runtime "crashed") → r.snapshot = some key → key.Expired r.now →
      ∃ b ∈ w.applied, b.took = some key.id ∧ ∀ c ∈ w.applied, c.took = some key.id → c = b

theorem replay_same [DecidableEq η] {key : TransactionBatchKey η} {response : BatchTransactionsResponse} {hash : η}
    (hhash : key.requestHash = hash) (hresp : key.response = some response) :
    replay key hash = .ok { response with replayed := true } := by
  simp [replay, refuse, found, hhash, hresp, bind, Except.bind]

theorem replay_other [DecidableEq η] {key : TransactionBatchKey η} {hash : η} (hhash : key.requestHash ≠ hash) :
    replay key hash = .error differentBatch := by
  simp [replay, refuse, hhash, bind, Except.bind]

namespace BatchInv

variable [DecidableEq η] {Sent : BatchTransactionsRequest → Prop} {w : BatchWorld η}

/-- What the committed row answers. -/
theorem replay_eq (h : BatchInv requestHash orgId Sent w)
    (hcollision : ∀ b b', Sent b → Sent b' → requestHash b = requestHash b' → b = b') {a : AppliedBatch η}
    (ha : a ∈ w.applied) {body : BatchTransactionsRequest} (hbody : Sent body) :
    (body = a.body → replay a.key (requestHash body) = .ok { a.response with replayed := true }) ∧
      (body ≠ a.body → replay a.key (requestHash body) = .error differentBatch) := by
  obtain ⟨hhash, hresp⟩ := h.history.hashed a ha
  refine ⟨fun he => replay_same (by rw [hhash, he]) hresp, fun hne => replay_other fun he => hne ?_⟩
  exact (hcollision _ _ (h.sentApplied a ha) hbody (hhash.symm.trans he)).symm

/-- What a step leaves committed. -/
theorem writes (h : BatchInv requestHash orgId Sent w) {w' : BatchWorld η} {ev : BatchEvent}
    (hm : BatchMove requestHash orgId w ev w') :
    (w'.db = w.db ∧ w'.key = w.key ∧ w'.applied = w.applied) ∨
      ∃ a failing, w'.applied = a :: w.applied ∧ w'.key = some a.key ∧
        createBatch w.db orgId a.body failing = (w'.db, a.response) ∧ ∀ key, w.key = some key → key.Expired w.clock := by
  cases hm with
  | @commit id r deleted claim db response at_ phase =>
    have hknows := h.knows id r at_
    unfold Knows at hknows
    rw [phase] at hknows
    obtain ⟨hready, -, -, -, failing, hrows⟩ := hknows
    refine .inr ⟨_, failing, rfl, rfl, hrows, fun key hkey => ?_⟩
    have hexp := hready.expired key hkey
    have hpast := hready.past
    unfold TransactionBatchKey.Expired at hexp ⊢
    omega
  | begin | tick | look | delete | duplicate | claim | write | relook | crash => exact .inl ⟨rfl, rfl, rfl⟩

omit [DecidableEq η] in
/-- A step that moves one request answers that one or none. -/
theorem answers_put {w' : BatchWorld η} {i id : Nat} {r r' : BatchRequest η} {body : BatchTransactionsRequest}
    {outcome : Result BatchTransactionsResponse} (hr : w.requests.get? i = some r)
    (hw' : w'.requests = w.requests.modify i (fun _ => r')) (h : Answers w w' id body outcome) :
    r.body = body ∧ r'.phase = .answered outcome := by
  obtain ⟨⟨s, hs, hbody, hopen⟩, s', hs', hphase⟩ := h
  rw [hw'] at hs'
  obtain ⟨t, ht, rfl⟩ := Table.get?_modify_eq_some.mp hs'
  obtain rfl := Option.some.inj (hs.symm.trans ht)
  by_cases hid : id = i
  · subst hid
    obtain rfl := Option.some.inj (hr.symm.trans hs)
    exact ⟨hbody, by simpa using hphase⟩
  · rw [if_neg hid] at hphase
    exact absurd hphase (hopen outcome)

/-- **While a key is alive**, an answer is a replay of its batch or the conflict. -/
theorem answered (h : BatchInv requestHash orgId Sent w)
    (hcollision : ∀ b b', Sent b → Sent b' → requestHash b = requestHash b' → b = b') {w' : BatchWorld η}
    {ev : BatchEvent} (hm : BatchMove requestHash orgId w ev w') {a : AppliedBatch η} {id : Nat}
    {body : BatchTransactionsRequest} {outcome : Result BatchTransactionsResponse} (hhead : w.applied.head? = some a)
    (halive : ¬ a.key.Expired w.clock) (hans : Answers w w' id body outcome)
    (hfine : outcome ≠ .error (.runtime "crashed")) :
    w'.db = w.db ∧ w'.key = w.key ∧ (body = a.body → outcome = .ok { a.response with replayed := true }) ∧
      (body ≠ a.body → outcome = .error differentBatch) := by
  have ha : a ∈ w.applied := List.mem_of_mem_head? hhead
  have hkey : w.key = some a.key := by rw [h.history.head, hhead, Option.map_some]
  have frame : w'.db = w.db ∧ w'.key = w.key := by
    rcases h.writes hm with ⟨hdb, hkey', -⟩ | ⟨_, _, -, -, -, hexp⟩
    · exact ⟨hdb, hkey'⟩
    · exact absurd (hexp _ hkey) halive
  have verdict : ∀ {r : BatchRequest η} {i : Nat}, w.requests.get? i = some r → r.body = body →
      BatchPhase.answered (η := η) (replay a.key (requestHash r.body)) = .answered outcome →
        (body = a.body → outcome = .ok { a.response with replayed := true }) ∧
          (body ≠ a.body → outcome = .error differentBatch) := by
    rintro r i hr rfl houtcome
    rw [← BatchPhase.answered.inj houtcome]
    exact h.replay_eq hcollision ha (h.sent i r hr)
  refine ⟨frame.1, frame.2, ?_⟩
  cases hm with
  | begin new =>
    obtain ⟨⟨s, hs, -, hopen⟩, s', hs', hphase⟩ := hans
    have hsame : (w.requests.insert { body := new, snapshot := w.key }).get? id = some s :=
      Table.get?_insert_of_some hs
    obtain rfl := Option.some.inj (hsame.symm.trans hs')
    exact absurd hphase (hopen outcome)
  | tick seconds =>
    obtain ⟨⟨s, hs, -, hopen⟩, s', hs', hphase⟩ := hans
    obtain rfl := Option.some.inj (hs.symm.trans hs')
    exact absurd hphase (hopen outcome)
  | @look i r at_ phase =>
    obtain ⟨hbody, hphase⟩ := answers_put at_ rfl hans
    unfold lookAt at hphase
    split at hphase
    · cases hphase
    · rename_i existing hsome
      split at hphase
      · cases hphase
      · -- what is alive in the snapshot is the committed row
        rename_i hexp
        obtain ⟨b, hb, rfl⟩ := h.snapshots i r at_ existing hsome
        have hsame := h.history.key_of_alive hb hexp
        rw [Option.some.inj (hsame.symm.trans hkey)] at hphase
        exact verdict at_ hbody hphase
  | @delete i r existing at_ phase found free => cases (answers_put at_ rfl hans).2
  | @duplicate i r at_ phase there => cases (answers_put at_ rfl hans).2
  | @claim i r deleted at_ phase free absent => cases (answers_put at_ rfl hans).2
  | @write i r deleted claimId failing db response at_ phase rows => cases (answers_put at_ rfl hans).2
  | @commit i r deleted claim db response at_ phase =>
    have hnew : some claim = w.key := frame.2
    have hknows := h.knows i r at_
    unfold Knows at hknows
    rw [phase] at hknows
    have habove := hknows.1.above a ha
    rw [Option.some.inj (hnew.trans hkey)] at habove
    exact absurd habove (lt_irrefl _)
  | @relook i r at_ phase =>
    obtain ⟨hbody, hphase⟩ := answers_put at_ rfl hans
    rw [hkey] at hphase
    exact verdict at_ hbody hphase
  | @crash i r at_ =>
    obtain ⟨-, hphase⟩ := answers_put at_ rfl hans
    exact absurd (BatchPhase.answered.inj hphase).symm hfine

end BatchInv

theorem BatchInv.appliedOnce [DecidableEq η] {Sent : BatchTransactionsRequest → Prop} {w : BatchWorld η}
    (h : BatchInv requestHash orgId Sent w)
    (hcollision : ∀ b b', Sent b → Sent b' → requestHash b = requestHash b' → b = b') :
    AppliedOnce requestHash orgId w where
  apart := h.history.spaced.imp And.right
  writes _ _ hstep := h.writes (batchStep_move hstep)
  committed key hkey := by
    obtain ⟨a, hhead, rfl⟩ := Option.map_eq_some_iff.mp (h.history.head.symm.trans hkey)
    have ha := List.mem_of_mem_head? hhead
    exact ⟨a, hhead, rfl, (h.history.hashed a ha).2, h.history.present a ha⟩
  answered _ _ _ _ _ _ hstep hhead halive hans hfine :=
    h.answered hcollision (batchStep_move hstep) hhead halive hans hfine
  takenOver i r outcome key hr hphase hfine hsnap hexp := by
    have hknows := h.knows i r hr
    unfold Knows at hknows
    rw [hphase] at hknows
    have hgone := hknows.resolve_left hfine key hsnap hexp
    obtain ⟨a, ha, rfl⟩ := h.snapshots i r hr key hsnap
    obtain ⟨b, hb, htook⟩ := h.history.replaced a ha hgone
    exact ⟨b, hb, htook, fun c hc htook' =>
      List.inj_on_of_nodup_map h.history.tookOnce hc hb (htook'.trans htook.symm)⟩

/-- **A batch is applied once under its key.** In every state that any requests reach, in
any order of their steps and whichever of them fail: the batches applied are a lifetime
apart, no committed key lacks its response or its rows, a request answered while the key
is alive gets the first response, or the conflict if its body is another, and writes
nothing, and an expired key is replaced by one batch. The fingerprints of the bodies sent
do not collide. -/
theorem batch_applied_once [DecidableEq η] (requestHash : BatchTransactionsRequest → η) (orgId : Nat) (db : Db)
    (clock : Int) (calls : List BatchEvent)
    (hcollision : ∀ b b', .begin b ∈ calls → .begin b' ∈ calls → requestHash b = requestHash b' → b = b') :
    AppliedOnce requestHash orgId (run (batchStep requestHash orgId) { clock, db } calls) :=
  (batchInv_run db clock calls).appliedOnce hcollision

/-- One keyed request from its first read to its commit, and then another. -/
def firstThenRepeat : List BatchEvent :=
  let body : BatchTransactionsRequest :=
    { rows := [{ rowNumber := 1, transaction :=
        { accountId := 1, categoryId := 1, description := "Coffee", amount := ⟨300, by decide⟩, type := .expense
          date := 738000 } }]
      size := by decide, unique := by decide }
  [.begin body, .look 1, .insert 1, .write 1 [], .commit 1, .begin body, .look 2]

theorem batch_applied_once_repeat :
    AppliedOnce (fun body => body.rows.map (·.rowNumber)) 1
      (run (batchStep (fun body => body.rows.map (·.rowNumber)) 1) { clock := 0, db := {} } firstThenRepeat) :=
  batch_applied_once _ 1 {} 0 firstThenRepeat fun b b' hb hb' _ => by
    simp only [firstThenRepeat, List.mem_cons, BatchEvent.begin.injEq, reduceCtorEq, List.not_mem_nil, or_false,
      false_or, or_self] at hb hb'
    rw [hb, hb']

end

end BetterDecision
