import BetterDecision.Model.Invitations
import BetterDecision.Proof.Members

/-!
# Invitations and seats are kept

The organisation's lock and the rows' locks carry what holds of every run: one open
invitation an address, and an invitation accepted once, while it is pending
(`InvitationInv`). The caps and the seats are counted in the snapshot, which the lock
does not renew, so they are kept only while the snapshot hides nothing that was
committed since (`SnapshotCurrent`).
-/

namespace BetterDecision

/-! ## Counts -/

theorem countPendingInvitations_later (invitations : Table Invitation) (orgId : Nat) {now now' : Int} (h : now ≤ now') :
    countPendingInvitations invitations orgId now' ≤ countPendingInvitations invitations orgId now := by
  refine Table.length_select_mono fun i inv _ hinv => ?_
  simp only [Invitation.isPending, Bool.and_eq_true, decide_eq_true_eq] at hinv ⊢
  exact ⟨hinv.1, hinv.2.1, by omega⟩

theorem countCreated_later (invitations : Table Invitation) (orgId : Nat) {now now' : Int} (h : now ≤ now') :
    countCreated invitations orgId now' ≤ countCreated invitations orgId now := by
  refine Table.length_select_mono fun i inv _ hinv => ?_
  simp only [Bool.and_eq_true, decide_eq_true_eq] at hinv ⊢
  exact ⟨hinv.1, by omega⟩

/-! ## What a step can do -/

variable {rules : SeatRules}

/-- Where a step can take one transaction, and what it has checked by then. -/
inductive Turn (rules : SeatRules) (w : InvitationWorld) (id : Nat) (tx : InvitationTx) : InvitationPhase → Prop
  | locked {orgId : Nat} (free : ¬ w.OrgHeld id orgId) : Turn rules w id tx (.locked orgId)
  | checked {orgId : Nat} {email : String} {cleared : List Nat} (was : tx.phase = .locked orgId)
      (free : ∀ i ∈ cleared, ¬ w.InvitationHeld id i)
      (ok : checkCreate rules tx.snapshot orgId email cleared w.clock = .ok ()) :
      Turn rules w id tx (.checked orgId cleared w.clock)
  | claimed {orgId invitationId : Nat} {inv : Invitation} {email username : String} {existing : Option (Nat × User)}
      (was : tx.phase = .locked orgId) (free : ¬ w.InvitationHeld id invitationId)
      (row : w.db.invitations.get? invitationId = some inv) (org : inv.orgId = orgId)
      (ok : checkAccept rules tx.snapshot.users inv email username w.clock = .ok existing) :
      Turn rules w id tx (.claimed orgId invitationId inv w.clock existing)
  | created {orgId : Nat} {email : String} {cleared : List Nat} {now : Int} {inv : Invitation}
      (was : tx.phase = .checked orgId cleared now) (org : inv.orgId = orgId) (address : inv.openEmail = some email)
      (clear : ∀ i ∈ openInvitations w.db.invitations orgId email, i ∈ cleared) :
      Turn rules w id tx (.written (some orgId) (.created cleared inv))
  | revoked {invitationId : Nat} {now : Int} (free : ¬ w.InvitationHeld id invitationId) :
      Turn rules w id tx (.written none (.revoked invitationId now))
  | reactivated {orgId invitationId user : Nat} {inv : Invitation} {now : Int} {old : User} {role : Option Role}
      (was : tx.phase = .claimed orgId invitationId inv now (some (user, old))) :
      Turn rules w id tx (.written (some orgId) (.reactivated invitationId now user role))
  | joined {orgId invitationId : Nat} {inv : Invitation} {now : Int} {user : User}
      (was : tx.phase = .claimed orgId invitationId inv now none) (org : user.orgId = inv.orgId) :
      Turn rules w id tx (.written (some orgId) (.joined invitationId now user))
  | removed (write : UserWrite) : Turn rules w id tx (.written none (.removed write))
  | done (outcome : Except MemberError Unit) : Turn rules w id tx (.done outcome)

inductive InvitationMove (rules : SeatRules) (w : InvitationWorld) : InvitationEvent → InvitationWorld → Prop
  | begin (call : InvitationCall) :
      InvitationMove rules w (.begin call) { w with txs := w.txs.insert { call, snapshot := w.db } }
  | tick (seconds : Nat) : InvitationMove rules w (.tick seconds) { w with clock := w.clock + seconds }
  | turn {ev : InvitationEvent} {id : Nat} {tx : InvitationTx} {phase : InvitationPhase}
      (at_ : w.txs.get? id = some tx) (turn : Turn rules w id tx phase) : InvitationMove rules w ev (w.goto id phase)
  | commit {id : Nat} {tx : InvitationTx} {orgId : Option Nat} {write : InvitationWrite}
      (at_ : w.txs.get? id = some tx) (phase : tx.phase = .written orgId write) :
      InvitationMove rules w (.commit id)
        { (w.finish id (.ok ())) with db := write.apply w.db, accepts := w.record (write.apply w.db) write }

section Steps

variable {w w' : InvitationWorld} {id : Nat} {tx : InvitationTx}

/-- It moved one transaction, and nothing else. -/
def Turned (rules : SeatRules) (w : InvitationWorld) (id : Nat) (tx : InvitationTx) (w' : InvitationWorld) : Prop :=
  ∃ phase, w' = w.goto id phase ∧ Turn rules w id tx phase

theorem turned_finish (outcome : Except MemberError Unit) : Turned rules w id tx (w.finish id outcome) :=
  ⟨_, rfl, .done outcome⟩

theorem lockStep_turned (h : lockStep w id tx = .ok w') : Turned rules w id tx w' := by
  unfold lockStep at h
  split at h
  · obtain ⟨_, hfree, h⟩ := bind_eq_ok.mp h
    exact ⟨_, (Except.ok.inj h).symm, .locked (refuse_eq_ok.mp hfree)⟩
  · split at h
    · exact Except.ok.inj h ▸ turned_finish _
    · obtain ⟨_, hfree, h⟩ := bind_eq_ok.mp h
      exact ⟨_, (Except.ok.inj h).symm, .locked (refuse_eq_ok.mp hfree)⟩
  · cases h

theorem checkStep_turned {orgId : Nat} (hphase : tx.phase = .locked orgId)
    (h : checkStep rules w id tx orgId = .ok w') : Turned rules w id tx w' := by
  unfold checkStep at h
  split at h
  · obtain ⟨_, hfree, h⟩ := bind_eq_ok.mp h
    split at h
    · exact Except.ok.inj h ▸ turned_finish _
    · rename_i hok
      exact ⟨_, (Except.ok.inj h).symm, .checked hphase (fun i hi hheld => refuse_eq_ok.mp hfree ⟨i, hi, hheld⟩) hok⟩
  · obtain ⟨_, hfree, h⟩ := bind_eq_ok.mp h
    split at h
    · exact Except.ok.inj h ▸ turned_finish _
    · rename_i inv hinv
      obtain ⟨hrow, horg⟩ := Option.filter_eq_some_iff.mp hinv
      split at h
      · exact Except.ok.inj h ▸ turned_finish _
      · rename_i hok
        exact ⟨_, (Except.ok.inj h).symm, .claimed hphase (refuse_eq_ok.mp hfree) hrow (by simpa using horg) hok⟩
  · cases h

theorem insertInvitation_turned {orgId createdBy : Nat} {email : String} {role : Role} {cleared : List Nat} {now : Int}
    (hphase : tx.phase = .checked orgId cleared now)
    (h : insertInvitation w id orgId createdBy email role cleared = .ok w') : Turned rules w id tx w' := by
  obtain ⟨_, -, h⟩ := bind_eq_ok.mp h
  split at h
  · rename_i hclash
    refine ⟨_, (Except.ok.inj h).symm, .created hphase rfl rfl fun i hi => ?_⟩
    by_contra hnot
    have hmem : i ∈ (openInvitations w.db.invitations orgId email).filter (· ∉ cleared) :=
      List.mem_filter.mpr ⟨hi, by simpa using hnot⟩
    rw [hclash] at hmem
    cases hmem
  · exact Except.ok.inj h ▸ turned_finish _

theorem acceptInvitation_turned {orgId invitationId : Nat} {inv : Invitation} {now : Int} {username : String}
    {existing : Option (Nat × User)} (hphase : tx.phase = .claimed orgId invitationId inv now existing)
    (h : acceptInvitation w id orgId invitationId inv now username existing = .ok w') : Turned rules w id tx w' := by
  unfold acceptInvitation at h
  split at h
  · obtain ⟨_, -, h⟩ := bind_eq_ok.mp h
    split at h
    · exact ⟨_, (Except.ok.inj h).symm, .reactivated hphase⟩
    · exact Except.ok.inj h ▸ turned_finish _
  · obtain ⟨_, -, h⟩ := bind_eq_ok.mp h
    split at h
    · exact ⟨_, (Except.ok.inj h).symm, .joined hphase rfl⟩
    · exact Except.ok.inj h ▸ turned_finish _

theorem revokeInvitation_turned {db : InvitationDb} {orgId invitationId : Nat}
    (h : revokeInvitation w id db orgId invitationId = .ok w') : Turned rules w id tx w' := by
  unfold revokeInvitation at h
  split at h
  · exact Except.ok.inj h ▸ turned_finish _
  · split at h
    · exact Except.ok.inj h ▸ turned_finish _
    · obtain ⟨_, hfree, h⟩ := bind_eq_ok.mp h
      exact ⟨_, (Except.ok.inj h).symm, .revoked (refuse_eq_ok.mp hfree)⟩

theorem removeStep_turned {users : Table User} {orgId actorId targetUserId : Nat}
    (h : removeStep w id users orgId actorId targetUserId = .ok w') : Turned rules w id tx w' := by
  unfold removeStep at h
  split at h
  · exact Except.ok.inj h ▸ turned_finish _
  · exact Except.ok.inj h ▸ turned_finish _
  · obtain ⟨_, -, h⟩ := bind_eq_ok.mp h
    split at h
    · exact ⟨_, (Except.ok.inj h).symm, .removed _⟩
    · exact Except.ok.inj h ▸ turned_finish _

theorem writeStep_turned (h : writeStep w id tx = .ok w') : Turned rules w id tx w' := by
  unfold writeStep at h
  split at h
  · exact insertInvitation_turned ‹_› h
  · exact acceptInvitation_turned ‹_› h
  · exact revokeInvitation_turned h
  · exact removeStep_turned h
  · cases h

theorem invitationStep_move {ev : InvitationEvent} (h : invitationStep rules w ev = .ok w') :
    InvitationMove rules w ev w' := by
  have turned : ∀ {ev id tx}, w.txs.get? id = some tx → Turned rules w id tx w' → InvitationMove rules w ev w' := by
    intro ev id tx htx hturned
    obtain ⟨phase, rfl, hturn⟩ := hturned
    exact .turn htx hturn
  cases ev with
  | begin call => exact Except.ok.inj h ▸ .begin call
  | tick seconds => exact Except.ok.inj h ▸ .tick seconds
  | lock id =>
    obtain ⟨tx, htx, h⟩ := bind_eq_ok.mp h
    split at h
    · exact turned (found_eq_ok.mp htx) (lockStep_turned h)
    · cases h
  | check id =>
    obtain ⟨tx, htx, h⟩ := bind_eq_ok.mp h
    split at h
    · exact turned (found_eq_ok.mp htx) (checkStep_turned ‹_› h)
    · cases h
  | write id =>
    obtain ⟨tx, htx, h⟩ := bind_eq_ok.mp h
    exact turned (found_eq_ok.mp htx) (writeStep_turned h)
  | commit id =>
    obtain ⟨tx, htx, h⟩ := bind_eq_ok.mp h
    split at h
    · exact Except.ok.inj h ▸ .commit (found_eq_ok.mp htx) ‹_›
    · cases h
  | fail id =>
    obtain ⟨tx, htx, h⟩ := bind_eq_ok.mp h
    split at h
    · cases h
    · exact turned (found_eq_ok.mp htx) (Except.ok.inj h ▸ turned_finish _)

end Steps

/-! ## What every run keeps -/

/-- One open invitation an address. -/
def OneOpen (invitations : Table Invitation) : Prop :=
  ∀ i j a b, invitations.get? i = some a → invitations.get? j = some b → a.orgId = b.orgId →
    a.openEmail = b.openEmail → a.openEmail.isSome → i = j

/-- What a transaction knows of the committed rows. -/
def InvitationKnows (w : InvitationWorld) : InvitationPhase → Prop
  | .claimed orgId id inv now _ => w.db.invitations.get? id = some inv ∧ orgId = inv.orgId ∧ inv.isPending now
  | .written orgId (.created cleared inv) =>
    orgId = some inv.orgId ∧ inv.openEmail.isSome ∧ ∀ i a, w.db.invitations.get? i = some a →
      a.orgId = inv.orgId → a.openEmail = inv.openEmail → i ∈ cleared
  | .written orgId (.reactivated id now _ _) =>
    ∃ inv, w.db.invitations.get? id = some inv ∧ orgId = some inv.orgId ∧ inv.isPending now
  | .written orgId (.joined id now user) =>
    ∃ inv, w.db.invitations.get? id = some inv ∧ orgId = some inv.orgId ∧ inv.isPending now ∧ user.orgId = inv.orgId
  | _ => True

structure InvitationInv (w : InvitationWorld) : Prop where
  oneOpen : OneOpen w.db.invitations
  /-- An organisation is locked by one transaction. -/
  orgs : ∀ i j s t orgId, w.txs.get? i = some s → w.txs.get? j = some t →
    s.phase.org = some orgId → t.phase.org = some orgId → i = j
  /-- So is an invitation. -/
  rows : ∀ i j s t x, w.txs.get? i = some s → w.txs.get? j = some t →
    x ∈ s.phase.invitations → x ∈ t.phase.invitations → i = j
  knows : ∀ i s, w.txs.get? i = some s → InvitationKnows w s.phase
  acceptedOnce : (w.accepts.map (·.id)).Nodup
  accepts : ∀ a ∈ w.accepts, a.row.isPending a.now ∧
    ∃ inv, w.db.invitations.get? a.id = some inv ∧ inv.acceptedAt = some a.now

section Turns

variable {w : InvitationWorld} {id : Nat} {tx : InvitationTx} {phase : InvitationPhase}

/-- A lock on an organisation is new and was free, or was held before. -/
theorem Turn.org (h : Turn rules w id tx phase) {orgId : Nat} (horg : phase.org = some orgId) :
    tx.phase.org = some orgId ∨ ¬ w.OrgHeld id orgId := by
  cases h with
  | locked free => exact .inr (Option.some.inj horg ▸ free)
  | checked was | claimed was | created was | reactivated was | joined was => exact .inl (by rw [was]; exact horg)
  | revoked | removed | done => cases horg

/-- So is a lock on an invitation. -/
theorem Turn.row (h : Turn rules w id tx phase) {x : Nat} (hx : x ∈ phase.invitations) :
    x ∈ tx.phase.invitations ∨ ¬ w.InvitationHeld id x := by
  cases h with
  | checked was free => exact .inr (free x hx)
  | claimed was free => exact .inr (List.mem_singleton.mp hx ▸ free)
  | revoked free => exact .inr (List.mem_singleton.mp hx ▸ free)
  | created was | reactivated was | joined was => exact .inl (by rw [was]; exact hx)
  | locked | removed | done => cases hx

theorem Turn.knows (h : Turn rules w id tx phase) (hknows : InvitationKnows w tx.phase) : InvitationKnows w phase := by
  cases h with
  | @claimed orgId invitationId inv email username existing was free row org ok =>
    refine ⟨row, org.symm, ?_⟩
    obtain ⟨_, -, ok⟩ := bind_eq_ok.mp ok
    obtain ⟨_, hpending, -⟩ := bind_eq_ok.mp ok
    exact not_not.mp (refuse_eq_ok.mp hpending)
  | @created orgId email cleared now inv was org address clear =>
    refine ⟨by rw [org], by rw [address]; rfl, fun i a ha horg hopen => clear i ?_⟩
    refine List.mem_map.mpr ⟨(i, a), Table.mem_select.mpr ⟨ha, ?_⟩, rfl⟩
    simp [horg, org, hopen, address]
  | @reactivated orgId invitationId user inv now old role was =>
    rw [was] at hknows
    obtain ⟨hrow, horg, hpending⟩ := hknows
    exact ⟨inv, hrow, by rw [horg], hpending⟩
  | @joined orgId invitationId inv now user was org =>
    rw [was] at hknows
    obtain ⟨hrow, horg, hpending⟩ := hknows
    exact ⟨inv, hrow, by rw [horg], hpending, org⟩
  | locked | checked | revoked | removed | done => trivial

/-- A transaction of the world after a turn: the one that turned, or another one as it was. -/
theorem get?_goto {i : Nat} {s : InvitationTx} (htx : w.txs.get? id = some tx)
    (hs : (w.goto id phase).txs.get? i = some s) :
    (i = id ∧ s = { tx with phase }) ∨ (i ≠ id ∧ w.txs.get? i = some s) := by
  obtain ⟨old, hold, rfl⟩ := Table.get?_modify_eq_some.mp hs
  by_cases hi : i = id
  · subst hi
    obtain rfl := Option.some.inj (htx.symm.trans hold)
    exact .inl ⟨rfl, if_pos rfl⟩
  · exact .inr ⟨hi, by rw [if_neg hi]; exact hold⟩

/-- Nobody else holds what is free. -/
theorem not_other {i : Nat} {s : InvitationTx} {test : InvitationPhase → Bool} (h : ¬ w.Other id test) (hi : i ≠ id)
    (hs : w.txs.get? i = some s) : ¬ test s.phase = true :=
  fun htest => h ⟨(i, s), Table.mem_rows.mpr hs, hi, htest⟩

/-- **A turn keeps the locks apart.** -/
theorem InvitationInv.turn (h : InvitationInv w) (htx : w.txs.get? id = some tx) (ht : Turn rules w id tx phase) :
    InvitationInv (w.goto id phase) := by
  have orgs : ∀ i s orgId, i ≠ id → w.txs.get? i = some s → phase.org = some orgId → s.phase.org ≠ some orgId := by
    intro i s orgId hi hs horg hsorg
    rcases ht.org horg with hheld | hfree
    · exact hi (h.orgs i id s tx orgId hs htx hsorg hheld)
    · exact not_other hfree hi hs (by simpa using hsorg)
  have rows : ∀ i s x, i ≠ id → w.txs.get? i = some s → x ∈ phase.invitations → x ∉ s.phase.invitations := by
    intro i s x hi hs hx hsx
    rcases ht.row hx with hheld | hfree
    · exact hi (h.rows i id s tx x hs htx hsx hheld)
    · exact not_other hfree hi hs (by simpa using hsx)
  refine
    { oneOpen := h.oneOpen
      orgs := fun i j s t orgId hs ht' hsorg htorg => ?_
      rows := fun i j s t x hs ht' hsx htx' => ?_
      knows := fun i s hs => ?_
      acceptedOnce := h.acceptedOnce
      accepts := h.accepts }
  · rcases get?_goto htx hs with ⟨rfl, rfl⟩ | ⟨hi, hs'⟩
    · rcases get?_goto htx ht' with ⟨rfl, rfl⟩ | ⟨hj, ht''⟩
      · rfl
      · exact absurd htorg (orgs j t orgId hj ht'' hsorg)
    · rcases get?_goto htx ht' with ⟨rfl, rfl⟩ | ⟨-, ht''⟩
      · exact absurd hsorg (orgs i s orgId hi hs' htorg)
      · exact h.orgs i j s t orgId hs' ht'' hsorg htorg
  · rcases get?_goto htx hs with ⟨rfl, rfl⟩ | ⟨hi, hs'⟩
    · rcases get?_goto htx ht' with ⟨rfl, rfl⟩ | ⟨hj, ht''⟩
      · rfl
      · exact absurd htx' (rows j t x hj ht'' hsx)
    · rcases get?_goto htx ht' with ⟨rfl, rfl⟩ | ⟨-, ht''⟩
      · exact absurd hsx (rows i s x hi hs' htx')
      · exact h.rows i j s t x hs' ht'' hsx htx'
  · rcases get?_goto htx hs with ⟨rfl, rfl⟩ | ⟨-, hs'⟩
    · exact ht.knows (h.knows i tx htx)
    · exact h.knows i s hs'

end Turns

section Writes

variable {db : InvitationDb} {write : InvitationWrite} {i : Nat} {a : Invitation}

/-- What a commit does not hold it leaves. -/
theorem get?_apply_of_free {orgId : Option Nat} (hfree : i ∉ (InvitationPhase.written orgId write).invitations)
    (h : db.invitations.get? i = some a) : (write.apply db).invitations.get? i = some a := by
  cases write with
  | created cleared inv =>
    refine Table.get?_insert_of_some ?_
    have hfree : i ∉ cleared := hfree
    rw [Table.get?_mapRows, h, Option.map_some, if_neg hfree]
  | revoked id now => exact (Table.get?_modify_of_ne fun he => hfree (by rw [he]; exact List.mem_singleton_self _)).trans h
  | reactivated id now user role =>
    exact (Table.get?_modify_of_ne fun he => hfree (by rw [he]; exact List.mem_singleton_self _)).trans h
  | joined id now user =>
    exact (Table.get?_modify_of_ne fun he => hfree (by rw [he]; exact List.mem_singleton_self _)).trans h
  | removed write => exact h

/-- A row after a commit is an old one, perhaps closed, or the one it created. -/
theorem get?_apply_row (h : (write.apply db).invitations.get? i = some a) :
    (∃ old, db.invitations.get? i = some old ∧ a.orgId = old.orgId ∧ (a.openEmail = old.openEmail ∨ a.openEmail = none)) ∨
      ∃ cleared, write = .created cleared a ∧ i = db.invitations.next := by
  have modified : ∀ {id : Nat} {f : Invitation → Invitation}, (db.invitations.modify id f).get? i = some a →
      (∀ inv, (f inv).orgId = inv.orgId) → (∀ inv, (f inv).openEmail = none) →
        ∃ old, db.invitations.get? i = some old ∧ a.orgId = old.orgId ∧ (a.openEmail = old.openEmail ∨ a.openEmail = none) := by
    intro id f hget horg hopen
    obtain ⟨old, hold, rfl⟩ := Table.get?_modify_eq_some.mp hget
    split
    · exact ⟨old, hold, horg old, .inr (hopen old)⟩
    · exact ⟨old, hold, rfl, .inl rfl⟩
  cases write with
  | created cleared inv =>
    have h : ((db.invitations.mapRows _).insert inv).get? i = some a := h
    rw [Table.get?_insert] at h
    split at h
    · obtain rfl := Option.some.inj h
      exact .inr ⟨cleared, rfl, ‹_›⟩
    · rw [Table.get?_mapRows, Option.map_eq_some_iff] at h
      obtain ⟨old, hold, rfl⟩ := h
      split
      · exact .inl ⟨old, hold, rfl, .inr rfl⟩
      · exact .inl ⟨old, hold, rfl, .inl rfl⟩
  | revoked id now => exact .inl (modified h (fun _ => rfl) (fun _ => rfl))
  | reactivated id now user role => exact .inl (modified h (fun _ => rfl) (fun _ => rfl))
  | joined id now user => exact .inl (modified h (fun _ => rfl) (fun _ => rfl))
  | removed write => exact .inl ⟨a, h, rfl, .inl rfl⟩

/-- A row that was cleared is open no more. -/
theorem openEmail_of_cleared {cleared : List Nat} {inv : Invitation} (hi : i ∈ cleared)
    (hold : (db.invitations.get? i).isSome) (h : ((InvitationWrite.created cleared inv).apply db).invitations.get? i = some a) :
    a.openEmail = none := by
  obtain ⟨old, hold⟩ := Option.isSome_iff_exists.mp hold
  have hget : ((InvitationWrite.created cleared inv).apply db).invitations.get? i = some { old with openEmail := none } := by
    refine Table.get?_insert_of_some ?_
    rw [Table.get?_mapRows, hold, Option.map_some, if_pos hi]
  rw [← Option.some.inj (hget.symm.trans h)]

/-- Who is accepted stays so, if it is not accepted again. -/
theorem accepted_stays {t : Int} (h : db.invitations.get? i = some a) (haccepted : a.acceptedAt = some t)
    (hnot : ∀ now, write.accepts ≠ some (i, now)) :
    ∃ inv, (write.apply db).invitations.get? i = some inv ∧ inv.acceptedAt = some t := by
  have other : ∀ {id : Nat} {f : Invitation → Invitation}, i ≠ id →
      ∃ inv, (db.invitations.modify id f).get? i = some inv ∧ inv.acceptedAt = some t :=
    fun hne => ⟨a, (Table.get?_modify_of_ne hne).trans h, haccepted⟩
  cases write with
  | created cleared inv =>
    refine ⟨_, Table.get?_insert_of_some ((Table.get?_mapRows _ _ _).trans (congrArg _ h)), ?_⟩
    split
    · exact haccepted
    · exact haccepted
  | revoked id now =>
    by_cases hi : i = id
    · subst hi
      exact ⟨_, Table.get?_modify_self h, haccepted⟩
    · exact other hi
  | reactivated id now user role => exact other fun hi => hnot now (by rw [hi]; rfl)
  | joined id now user => exact other fun hi => hnot now (by rw [hi]; rfl)
  | removed write => exact ⟨a, h, haccepted⟩

/-- Who a write accepts is accepted. -/
theorem accepted_of_apply {now : Int} (h : db.invitations.get? i = some a) (haccepts : write.accepts = some (i, now)) :
    ∃ inv, (write.apply db).invitations.get? i = some inv ∧ inv.acceptedAt = some now := by
  cases write with
  | reactivated id t user role =>
    obtain ⟨rfl, rfl⟩ := Prod.mk.inj (Option.some.inj haccepts)
    exact ⟨_, Table.get?_modify_self h, rfl⟩
  | joined id t user =>
    obtain ⟨rfl, rfl⟩ := Prod.mk.inj (Option.some.inj haccepts)
    exact ⟨_, Table.get?_modify_self h, rfl⟩
  | created | revoked | removed => cases haccepts

/-- The invitation an accepting transaction holds is pending. -/
theorem knows_accepts {w : InvitationWorld} {orgId : Option Nat} {now : Int}
    (h : InvitationKnows w (.written orgId write)) (haccepts : write.accepts = some (i, now)) :
    ∃ inv, w.db.invitations.get? i = some inv ∧ orgId = some inv.orgId ∧ inv.isPending now := by
  cases write with
  | reactivated id t user role =>
    obtain ⟨rfl, rfl⟩ := Prod.mk.inj (Option.some.inj haccepts)
    exact h
  | joined id t user =>
    obtain ⟨rfl, rfl⟩ := Prod.mk.inj (Option.some.inj haccepts)
    obtain ⟨inv, hrow, horg, hpending, -⟩ := h
    exact ⟨inv, hrow, horg, hpending⟩
  | created | revoked | removed => cases haccepts

end Writes

/-- What a transaction knows is not undone by a commit that holds other rows and another
organisation. -/
theorem InvitationKnows.after {w : InvitationWorld} {p : InvitationPhase} (h : InvitationKnows w p)
    {orgId : Option Nat} {write : InvitationWrite} (hw : InvitationKnows w (.written orgId write))
    (hrows : ∀ x ∈ p.invitations, x ∉ (InvitationPhase.written orgId write).invitations)
    (horgs : ∀ o, p.org = some o → orgId ≠ some o) (txs : Table InvitationTx) (accepts : List AcceptedInvitation) :
    InvitationKnows { w with db := write.apply w.db, txs, accepts } p := by
  rcases p with _ | _ | _ | ⟨o, id, inv, now, existing⟩ | ⟨o, (⟨cleared, inv⟩ | _ | ⟨id, now, user, role⟩ | ⟨id, now, user⟩ | _)⟩ | _
  · trivial
  · trivial
  · trivial
  · exact ⟨get?_apply_of_free (hrows id (List.mem_singleton_self _)) h.1, h.2⟩
  · obtain ⟨horg, haddress, hclash⟩ := h
    refine ⟨horg, haddress, fun i a ha hsame hopen => ?_⟩
    rcases get?_apply_row ha with ⟨old, hold, horg', hopen' | hopen'⟩ | ⟨cleared', rfl, -⟩
    · exact hclash i old hold (horg'.symm.trans hsame) (hopen'.symm.trans hopen)
    · rw [← hopen, hopen'] at haddress
      cases haddress
    · exact absurd (hw.1.trans (congrArg some hsame)) (horgs _ horg)
  · trivial
  · obtain ⟨inv, hrow, hrest⟩ := h
    exact ⟨inv, get?_apply_of_free (hrows id (List.mem_singleton_self _)) hrow, hrest⟩
  · obtain ⟨inv, hrow, hrest⟩ := h
    exact ⟨inv, get?_apply_of_free (hrows id (List.mem_singleton_self _)) hrow, hrest⟩
  · trivial
  · trivial

/-- A commit leaves one open invitation an address. -/
theorem OneOpen.apply {w : InvitationWorld} (h : OneOpen w.db.invitations) {orgId : Option Nat} {write : InvitationWrite}
    (hw : InvitationKnows w (.written orgId write)) : OneOpen (write.apply w.db).invitations := by
  -- an old row that is open now was open before
  have wasOpen : ∀ {a old : Invitation}, a.openEmail = old.openEmail ∨ a.openEmail = none → a.openEmail.isSome →
      a.openEmail = old.openEmail := by
    rintro a old (hsame | hnone) hopen
    · exact hsame
    · rw [hnone] at hopen
      cases hopen
  -- an old row does not have the address of the one created
  have noClash : ∀ {cleared inv j b old}, write = .created cleared inv → w.db.invitations.get? j = some old →
      (write.apply w.db).invitations.get? j = some b → b.orgId = old.orgId → b.openEmail = old.openEmail →
        b.openEmail.isSome → inv.orgId = b.orgId → inv.openEmail ≠ b.openEmail := by
    rintro cleared inv j b old rfl hold hb horg hopen hsome hsame hclash
    have hcleared := hw.2.2 j old hold (horg.symm.trans hsame.symm) (hopen.symm.trans hclash.symm)
    have hnone := openEmail_of_cleared hcleared (by rw [hold]; rfl) hb
    rw [hnone] at hsome
    cases hsome
  intro i j a b ha hb horg hopen hsome
  have hsome' : b.openEmail.isSome := hopen ▸ hsome
  rcases get?_apply_row ha with ⟨old, hold, horga, hopena⟩ | ⟨cleared, hcreated, hi⟩
  · have hopena := wasOpen hopena hsome
    rcases get?_apply_row hb with ⟨old', hold', horgb, hopenb⟩ | ⟨cleared, hcreated, hj⟩
    · have hopenb := wasOpen hopenb hsome'
      exact h i j old old' hold hold' (by rw [← horga, horg, horgb]) (by rw [← hopena, hopen, hopenb]) (hopena ▸ hsome)
    · exact absurd hopen.symm (noClash hcreated hold ha horga hopena hsome horg.symm)
  · rcases get?_apply_row hb with ⟨old', hold', horgb, hopenb⟩ | ⟨cleared', hcreated', hj⟩
    · exact absurd hopen (noClash hcreated hold' hb horgb (wasOpen hopenb hsome') hsome' horg)
    · rw [hi, hj]

/-- The history a commit leaves, if it accepts an invitation that is there. -/
theorem record_of_accepts {w : InvitationWorld} {db : InvitationDb} {write : InvitationWrite} {i : Nat} {now : Int}
    {row : Invitation} (haccepts : write.accepts = some (i, now)) (hrow : w.db.invitations.get? i = some row) :
    w.record db write = { id := i, row, now, seats := countActive db.users row.orgId } :: w.accepts := by
  rw [InvitationWorld.record, haccepts]
  simp only [hrow]

theorem record_of_none {w : InvitationWorld} {db : InvitationDb} {write : InvitationWrite} (haccepts : write.accepts = none) :
    w.record db write = w.accepts := by
  rw [InvitationWorld.record, haccepts]

/-- **A commit keeps the locks apart and accepts no invitation twice.** -/
theorem InvitationInv.commit {w : InvitationWorld} (h : InvitationInv w) {id : Nat} {tx : InvitationTx}
    {orgId : Option Nat} {write : InvitationWrite} (htx : w.txs.get? id = some tx)
    (hphase : tx.phase = .written orgId write) :
    InvitationInv { (w.finish id (.ok ())) with db := write.apply w.db, accepts := w.record (write.apply w.db) write } := by
  have hturn : Turn ⟨false, none⟩ w id tx (.done (.ok ())) := .done (.ok ())
  have hdone := h.turn htx hturn
  have hw : InvitationKnows w (.written orgId write) := hphase ▸ h.knows id tx htx
  refine
    { oneOpen := h.oneOpen.apply hw
      orgs := hdone.orgs
      rows := hdone.rows
      knows := fun i s hs => ?_
      acceptedOnce := ?_
      accepts := ?_ }
  · rcases get?_goto htx hs with ⟨rfl, rfl⟩ | ⟨hi, hs'⟩
    · trivial
    · refine (h.knows i s hs').after hw (fun x hx hx' => hi ?_) (fun o ho ho' => hi ?_) _ _
      · exact h.rows i id s tx x hs' htx hx (by rw [hphase]; exact hx')
      · exact h.orgs i id s tx o hs' htx ho (by rw [hphase]; exact ho')
  · rcases haccepts : write.accepts with _ | ⟨j, now⟩
    · rw [record_of_none haccepts]
      exact h.acceptedOnce
    · obtain ⟨row, hrow, -, hpending⟩ := knows_accepts hw haccepts
      rw [record_of_accepts haccepts hrow, List.map_cons, List.nodup_cons]
      refine ⟨fun hmem => ?_, h.acceptedOnce⟩
      obtain ⟨a, ha, rfl⟩ := List.mem_map.mp hmem
      obtain ⟨-, inv, hinv, haccepted⟩ := h.accepts a ha
      obtain rfl := Option.some.inj (hrow.symm.trans hinv)
      simp [Invitation.isPending, haccepted] at hpending
  · rcases haccepts : write.accepts with _ | ⟨j, now⟩
    · rw [record_of_none haccepts]
      intro a ha
      obtain ⟨hpending, inv, hinv, haccepted⟩ := h.accepts a ha
      exact ⟨hpending, accepted_stays hinv haccepted (by simp [haccepts])⟩
    · obtain ⟨row, hrow, -, hpending⟩ := knows_accepts hw haccepts
      rw [record_of_accepts haccepts hrow]
      refine List.forall_mem_cons.mpr ⟨⟨hpending, accepted_of_apply hrow haccepts⟩, fun a ha => ?_⟩
      obtain ⟨hpending', inv, hinv, haccepted⟩ := h.accepts a ha
      refine ⟨hpending', accepted_stays hinv haccepted fun now' he => ?_⟩
      obtain ⟨rfl, -⟩ := Prod.mk.inj (Option.some.inj (haccepts.symm.trans he))
      obtain rfl := Option.some.inj (hrow.symm.trans hinv)
      simp [Invitation.isPending, haccepted] at hpending

theorem InvitationInv.move {w w' : InvitationWorld} {ev : InvitationEvent} (h : InvitationInv w)
    (hm : InvitationMove rules w ev w') : InvitationInv w' := by
  cases hm with
  | begin call =>
    have hget : ∀ i s, (w.txs.insert { call, snapshot := w.db }).get? i = some s →
        s.phase = .begun ∨ w.txs.get? i = some s := by
      intro i s hs
      rw [Table.get?_insert] at hs
      split at hs
      · exact .inl (by rw [← Option.some.inj hs])
      · exact .inr hs
    refine ⟨h.oneOpen, fun i j s t o hs ht hso hto => ?_, fun i j s t x hs ht hsx htx => ?_, fun i s hs => ?_,
      h.acceptedOnce, h.accepts⟩
    · rcases hget i s hs with hbegun | hs
      · rw [hbegun] at hso
        cases hso
      · rcases hget j t ht with hbegun | ht
        · rw [hbegun] at hto
          cases hto
        · exact h.orgs i j s t o hs ht hso hto
    · rcases hget i s hs with hbegun | hs
      · rw [hbegun] at hsx
        cases hsx
      · rcases hget j t ht with hbegun | ht
        · rw [hbegun] at htx
          cases htx
        · exact h.rows i j s t x hs ht hsx htx
    · rcases hget i s hs with hbegun | hs
      · rw [hbegun]
        trivial
      · exact h.knows i s hs
  | tick seconds => exact ⟨h.oneOpen, h.orgs, h.rows, h.knows, h.acceptedOnce, h.accepts⟩
  | turn at_ turn => exact h.turn at_ turn
  | commit at_ phase => exact h.commit at_ phase

theorem invitationInv_init {db : InvitationDb} (clock : Int) (hopen : OneOpen db.invitations) :
    InvitationInv { clock, db } where
  oneOpen := hopen
  orgs := by intro i j s t orgId hs; simp at hs
  rows := by intro i j s t x hs; simp at hs
  knows := by intro i s hs; simp at hs
  acceptedOnce := .nil
  accepts := by intro a ha; cases ha

/-! ## The caps and the seats -/

/-- The plan, if it limits the users, has a seat left among these. -/
def SeatFree (rules : SeatRules) (users : Table User) (orgId : Nat) : Prop :=
  ∀ plan maxUsers, rules.billingUiEnabled = true → rules.plan = some plan → plan.maxUsers = some maxUsers →
    countActive users orgId < maxUsers

theorem seatFree_of_enforced {users : Table User} {orgId : Nat} {u : Unit} (h : enforceUserLimit rules users orgId = .ok u) :
    SeatFree rules users orgId := by
  intro plan maxUsers hbilling hplan hmax
  unfold enforceUserLimit at h
  rw [hbilling, hplan] at h
  simp only [hmax, Bool.not_true, Bool.false_eq_true, if_false] at h
  exact Nat.lt_of_not_le (refuse_eq_ok.mp h)

/-- The counts a create made on its snapshot, at some time. -/
def CapsFree (snapshot : InvitationDb) (orgId : Nat) (now : Int) : Prop :=
  countPendingInvitations snapshot.invitations orgId now < maxPendingInvitations ∧
    countCreated snapshot.invitations orgId now < maxInvitationsPerDay

/-- What a transaction has found in its snapshot. -/
def GuardsPassed (rules : SeatRules) (clock : Int) (snapshot : InvitationDb) : InvitationPhase → Prop
  | .checked orgId _ now => now ≤ clock ∧ CapsFree snapshot orgId now
  | .claimed orgId _ _ _ _ => SeatFree rules snapshot.users orgId
  | .written _ (.created _ inv) => ∃ now ≤ clock, CapsFree snapshot inv.orgId now
  | .written orgId (.reactivated _ _ _ _) => ∀ o, orgId = some o → SeatFree rules snapshot.users o
  | .written orgId (.joined _ _ _) => ∀ o, orgId = some o → SeatFree rules snapshot.users o
  | _ => True

theorem checkCreate_caps {db : InvitationDb} {orgId : Nat} {email : String} {cleared : List Nat} {now : Int}
    (h : checkCreate rules db orgId email cleared now = .ok ()) : CapsFree db orgId now := by
  obtain ⟨_, -, h⟩ := bind_eq_ok.mp h
  obtain ⟨_, -, h⟩ := bind_eq_ok.mp h
  obtain ⟨_, hcaps, -⟩ := bind_eq_ok.mp h
  obtain ⟨_, hpending, hcreated⟩ := bind_eq_ok.mp hcaps
  exact ⟨Nat.lt_of_not_le (refuse_eq_ok.mp hpending), Nat.lt_of_not_le (refuse_eq_ok.mp hcreated)⟩

theorem checkAccept_seat {users : Table User} {inv : Invitation} {email username : String} {now : Int}
    {existing : Option (Nat × User)} (h : checkAccept rules users inv email username now = .ok existing) :
    SeatFree rules users inv.orgId := by
  obtain ⟨_, -, h⟩ := bind_eq_ok.mp h
  obtain ⟨_, -, h⟩ := bind_eq_ok.mp h
  split at h
  · obtain ⟨_, hseat, -⟩ := bind_eq_ok.mp h
    exact seatFree_of_enforced hseat
  · obtain ⟨_, -, h⟩ := bind_eq_ok.mp h
    obtain ⟨_, hseat, -⟩ := bind_eq_ok.mp h
    exact seatFree_of_enforced hseat

theorem Turn.guards {w : InvitationWorld} {id : Nat} {tx : InvitationTx} {phase : InvitationPhase}
    (h : Turn rules w id tx phase) (hguards : GuardsPassed rules w.clock tx.snapshot tx.phase) :
    GuardsPassed rules w.clock tx.snapshot phase := by
  cases h with
  | checked was free ok => exact ⟨le_rfl, checkCreate_caps ok⟩
  | claimed was free row org ok => exact org ▸ checkAccept_seat ok
  | created was org address clear =>
    rw [was] at hguards
    exact ⟨_, hguards.1, org ▸ hguards.2⟩
  | reactivated was =>
    rw [was] at hguards
    exact fun o ho => Option.some.inj ho ▸ hguards
  | joined was org =>
    rw [was] at hguards
    exact fun o ho => Option.some.inj ho ▸ hguards
  | locked | revoked | removed | done => trivial

/-- What a commit of these rows adds to the pending invitations, and to those of the day. -/
theorem counts_apply (db : InvitationDb) (write : InvitationWrite) (orgId : Nat) (now : Int) :
    (countPendingInvitations (write.apply db).invitations orgId now ≤ countPendingInvitations db.invitations orgId now ∧
        countCreated (write.apply db).invitations orgId now ≤ countCreated db.invitations orgId now) ∨
      ∃ cleared inv, write = .created cleared inv ∧ inv.orgId = orgId ∧
        countPendingInvitations (write.apply db).invitations orgId now ≤
          countPendingInvitations db.invitations orgId now + 1 ∧
        countCreated (write.apply db).invitations orgId now ≤ countCreated db.invitations orgId now + 1 := by
  have modified : ∀ {id : Nat} {f : Invitation → Invitation},
      (∀ inv, (f inv).isPending now = true → inv.isPending now = true) → (∀ inv, (f inv).orgId = inv.orgId) →
      (∀ inv, (f inv).expiresAt = inv.expiresAt) →
        countPendingInvitations (db.invitations.modify id f) orgId now ≤ countPendingInvitations db.invitations orgId now ∧
          countCreated (db.invitations.modify id f) orgId now ≤ countCreated db.invitations orgId now := by
    intro id f hpending horg hexpires
    refine ⟨Table.length_select_modify_of_imp fun inv _ h => ?_, Table.length_select_modify_of_imp fun inv _ h => ?_⟩
    · rw [horg, Bool.and_eq_true] at h
      rw [Bool.and_eq_true]
      exact ⟨h.1, hpending inv h.2⟩
    · rwa [horg, hexpires] at h
  cases write with
  | created cleared inv =>
    -- clearing rows moves no count
    let clear : Nat → Invitation → Invitation := fun i row => if i ∈ cleared then { row with openEmail := none } else row
    have hpending : countPendingInvitations (db.invitations.mapRows clear) orgId now =
        countPendingInvitations db.invitations orgId now :=
      Table.length_select_mapRows fun i row _ => by dsimp only [clear]; split <;> rfl
    have hcreated : countCreated (db.invitations.mapRows clear) orgId now = countCreated db.invitations orgId now :=
      Table.length_select_mapRows fun i row _ => by dsimp only [clear]; split <;> rfl
    by_cases horg : inv.orgId = orgId
    · refine .inr ⟨cleared, inv, rfl, horg, ?_, ?_⟩
      · exact (Table.length_select_insert_le inv _).trans (Nat.add_le_add_right hpending.le 1)
      · exact (Table.length_select_insert_le inv _).trans (Nat.add_le_add_right hcreated.le 1)
    · refine .inl ⟨?_, ?_⟩
      · refine le_trans (le_of_eq ?_) hpending.le
        rw [countPendingInvitations, InvitationWrite.apply, Table.select_insert, countPendingInvitations]
        simp [horg, clear]
      · refine le_trans (le_of_eq ?_) hcreated.le
        rw [countCreated, InvitationWrite.apply, Table.select_insert, countCreated]
        simp [horg, clear]
  | revoked id t => exact .inl (modified (fun _ h => by simp [Invitation.isPending] at h) (fun _ => rfl) (fun _ => rfl))
  | reactivated id t user role =>
    exact .inl (modified (fun _ h => by simp [Invitation.isPending] at h) (fun _ => rfl) (fun _ => rfl))
  | joined id t user =>
    exact .inl (modified (fun _ h => by simp [Invitation.isPending] at h) (fun _ => rfl) (fun _ => rfl))
  | removed write => exact .inl ⟨le_rfl, le_rfl⟩

/-- An accept makes one user active, at most. -/
theorem countActive_apply {db : InvitationDb} {write : InvitationWrite} {i : Nat} {now : Int}
    (haccepts : write.accepts = some (i, now)) (orgId : Nat) :
    countActive (write.apply db).users orgId ≤ countActive db.users orgId + 1 := by
  cases write with
  | reactivated id t user role =>
    exact Table.length_select_modify_le (t := db.users) user
      (fun u => { u with role := role.getD u.role, isActive := (some true).getD u.isActive })
      (fun _ u => u.orgId == orgId && u.isActive)
  | joined id t user => exact Table.length_select_insert_le ..
  | created | revoked | removed => cases haccepts

/-- A create or an accept that commits finds no more than its snapshot shows of what it
counted there. -/
def SnapshotCurrent (orgId : Nat) (w : InvitationWorld) : InvitationEvent → Prop
  | .commit id => ∀ tx write, w.txs.get? id = some tx → tx.phase = .written (some orgId) write →
      match write with
      | .created _ _ =>
        countPendingInvitations w.db.invitations orgId w.clock ≤
            countPendingInvitations tx.snapshot.invitations orgId w.clock ∧
          countCreated w.db.invitations orgId w.clock ≤ countCreated tx.snapshot.invitations orgId w.clock
      | .reactivated _ _ _ _ => countActive w.db.users orgId ≤ countActive tx.snapshot.users orgId
      | .joined _ _ _ => countActive w.db.users orgId ≤ countActive tx.snapshot.users orgId
      | _ => True
  | _ => True

/-- The caps of one organisation, and its seats after every accept. -/
structure CapsKept (rules : SeatRules) (orgId : Nat) (w : InvitationWorld) : Prop where
  pending : countPendingInvitations w.db.invitations orgId w.clock ≤ maxPendingInvitations
  created : countCreated w.db.invitations orgId w.clock ≤ maxInvitationsPerDay
  seats : ∀ plan maxUsers, rules.billingUiEnabled = true → rules.plan = some plan → plan.maxUsers = some maxUsers →
    ∀ a ∈ w.accepts, a.row.orgId = orgId → a.seats ≤ maxUsers

def GuardsHold (rules : SeatRules) (w : InvitationWorld) : Prop :=
  ∀ i s, w.txs.get? i = some s → GuardsPassed rules w.clock s.snapshot s.phase

theorem GuardsPassed.later {clock clock' : Int} {snapshot : InvitationDb} {phase : InvitationPhase}
    (h : GuardsPassed rules clock snapshot phase) (hle : clock ≤ clock') : GuardsPassed rules clock' snapshot phase := by
  rcases phase with _ | _ | ⟨o, cleared, now⟩ | _ | ⟨o, ⟨cleared, inv⟩ | _ | _ | _ | _⟩ | _
  · trivial
  · trivial
  · exact ⟨h.1.trans hle, h.2⟩
  · exact h
  · obtain ⟨now, hnow, hfree⟩ := h
    exact ⟨now, hnow.trans hle, hfree⟩
  · trivial
  · exact h
  · exact h
  · trivial
  · trivial

theorem guardsHold_move {w w' : InvitationWorld} {ev : InvitationEvent} (h : GuardsHold rules w)
    (hm : InvitationMove rules w ev w') : GuardsHold rules w' := by
  cases hm with
  | begin call =>
    intro i s hs
    rw [Table.get?_insert] at hs
    split at hs
    · rw [← Option.some.inj hs]
      trivial
    · exact h i s hs
  | tick seconds => exact fun i s hs => (h i s hs).later (by simp)
  | turn at_ turn =>
    intro i s hs
    rcases get?_goto at_ hs with ⟨rfl, rfl⟩ | ⟨-, hs'⟩
    · exact turn.guards (h i _ at_)
    · exact h i s hs'
  | commit at_ phase =>
    intro i s hs
    rcases get?_goto at_ hs with ⟨rfl, rfl⟩ | ⟨-, hs'⟩
    · trivial
    · exact h i s hs'

/-- **A commit keeps the caps and the seats**, if the snapshot hides nothing. -/
theorem CapsKept.commit {w : InvitationWorld} {orgId : Nat} (h : CapsKept rules orgId w) (hinv : InvitationInv w)
    (hguards : GuardsHold rules w) {id : Nat} {tx : InvitationTx} {o : Option Nat} {write : InvitationWrite}
    (htx : w.txs.get? id = some tx) (hphase : tx.phase = .written o write)
    (hcurrent : SnapshotCurrent orgId w (.commit id)) :
    CapsKept rules orgId
      { (w.finish id (.ok ())) with db := write.apply w.db, accepts := w.record (write.apply w.db) write } := by
  have hw : InvitationKnows w (.written o write) := hphase ▸ hinv.knows id tx htx
  have hpassed : GuardsPassed rules w.clock tx.snapshot (.written o write) := hphase ▸ hguards id tx htx
  have hcaps : countPendingInvitations (write.apply w.db).invitations orgId w.clock ≤ maxPendingInvitations ∧
      countCreated (write.apply w.db).invitations orgId w.clock ≤ maxInvitationsPerDay := by
    rcases counts_apply w.db write orgId w.clock with ⟨hpending, hcreated⟩ | ⟨cleared, inv, rfl, horg, hpending, hcreated⟩
    · exact ⟨hpending.trans h.pending, hcreated.trans h.created⟩
    · obtain ⟨now, hnow, hfree⟩ := hpassed
      obtain ⟨hp, hc⟩ := hcurrent tx _ htx (by rw [hphase, hw.1, horg])
      have hp' := countPendingInvitations_later tx.snapshot.invitations orgId hnow
      have hc' := countCreated_later tx.snapshot.invitations orgId hnow
      rw [horg] at hfree
      obtain ⟨hpf, hcf⟩ := hfree
      exact ⟨by omega, by omega⟩
  refine ⟨hcaps.1, hcaps.2, fun plan maxUsers hbilling hplan hmax => ?_⟩
  rcases haccepts : write.accepts with _ | ⟨j, now⟩
  · rw [record_of_none haccepts]
    exact h.seats plan maxUsers hbilling hplan hmax
  · obtain ⟨row, hrow, horg, -⟩ := knows_accepts hw haccepts
    rw [record_of_accepts haccepts hrow]
    refine List.forall_mem_cons.mpr ⟨fun hsame => ?_, h.seats plan maxUsers hbilling hplan hmax⟩
    have hsame : row.orgId = orgId := hsame
    have hadds : countActive (write.apply w.db).users row.orgId ≤ countActive w.db.users row.orgId + 1 :=
      countActive_apply haccepts row.orgId
    have hseat : SeatFree rules tx.snapshot.users row.orgId ∧
        countActive w.db.users orgId ≤ countActive tx.snapshot.users orgId := by
      have hphase' : tx.phase = .written (some orgId) write := by rw [hphase, horg, hsame]
      have hcur := hcurrent tx write htx hphase'
      cases write with
      | reactivated => exact ⟨hpassed _ horg, hcur⟩
      | joined => exact ⟨hpassed _ horg, hcur⟩
      | created | revoked | removed => cases haccepts
    have hlt := hseat.1 plan maxUsers hbilling hplan hmax
    have hle := hseat.2
    rw [← hsame] at hle
    show countActive (write.apply w.db).users row.orgId ≤ maxUsers
    omega

theorem CapsKept.move {w w' : InvitationWorld} {orgId : Nat} {ev : InvitationEvent} (h : CapsKept rules orgId w)
    (hinv : InvitationInv w) (hguards : GuardsHold rules w) (hcurrent : SnapshotCurrent orgId w ev)
    (hm : InvitationMove rules w ev w') : CapsKept rules orgId w' := by
  cases hm with
  | begin call => exact ⟨h.pending, h.created, h.seats⟩
  | tick seconds =>
    have hle : w.clock ≤ w.clock + seconds := by omega
    exact ⟨(countPendingInvitations_later _ _ hle).trans h.pending, (countCreated_later _ _ hle).trans h.created, h.seats⟩
  | turn at_ turn => exact ⟨h.pending, h.created, h.seats⟩
  | commit at_ phase => exact h.commit hinv hguards at_ phase hcurrent

/-! ## Runs -/

/-- What holds of the invitations whatever the snapshots show. -/
structure InvitationsSafe (w : InvitationWorld) : Prop where
  oneOpen : OneOpen w.db.invitations
  acceptedOnce : (w.accepts.map (·.id)).Nodup
  /-- Neither accepted, revoked nor expired when it was accepted. -/
  whilePending : ∀ a ∈ w.accepts, a.row.isPending a.now

/-- **Seats and caps.** In every run there is one open invitation an address, and each is
accepted at most once, while it is pending. The caps hold, and no accept goes over the
plan's users, in every run in which no create or accept commits on a snapshot that hides
some of what it counted. -/
theorem invitations_kept (rules : SeatRules) (db : InvitationDb) (clock : Int) (hopen : OneOpen db.invitations)
    (events : List InvitationEvent) :
    InvitationsSafe (run (invitationStep rules) { clock, db } events) ∧
      ∀ orgId, countPendingInvitations db.invitations orgId clock ≤ maxPendingInvitations →
        countCreated db.invitations orgId clock ≤ maxInvitationsPerDay →
        Guarded (invitationStep rules) (SnapshotCurrent orgId) { clock, db } events →
          CapsKept rules orgId (run (invitationStep rules) { clock, db } events) := by
  have hinit := invitationInv_init clock hopen
  refine ⟨?_, fun orgId hpending hcreated hcurrent => ?_⟩
  · have hinv : InvitationInv (run (invitationStep rules) { clock, db } events) :=
      run_invariant (fun _ _ _ h hs => h.move (invitationStep_move hs)) events hinit
    exact ⟨hinv.oneOpen, hinv.acceptedOnce, fun a ha => (hinv.accepts a ha).1⟩
  · let kept : InvitationWorld → Prop := fun w => InvitationInv w ∧ GuardsHold rules w ∧ CapsKept rules orgId w
    have hstep : ∀ w ev w', kept w → SnapshotCurrent orgId w ev → invitationStep rules w ev = .ok w' → kept w' := by
      intro w ev w' h hg hs
      have hm := invitationStep_move hs
      exact ⟨h.1.move hm, guardsHold_move h.2.1 hm, h.2.2.move h.1 h.2.1 hg hm⟩
    have hcaps : kept (run (invitationStep rules) { clock, db } events) :=
      run_invariant_of_guarded hstep events hcurrent
        ⟨hinit, fun i s hs => by simp at hs, hpending, hcreated, fun _ _ _ _ _ a ha => by cases ha⟩
    exact hcaps.2.2

/-- An owner, two removed members, and an open invitation for each of those. -/
def twoInvited : InvitationDb where
  users := ((Table.empty.insert { orgId := 1, email := "a@x", role := .owner }).insert
    { orgId := 1, email := "b@x", isActive := false }).insert { orgId := 1, email := "c@x", isActive := false }
  invitations := (Table.empty.insert
    { orgId := 1, email := "b@x", openEmail := some "b@x", createdBy := 1, expiresAt := invitationTtl }).insert
    { orgId := 1, email := "c@x", openEmail := some "c@x", createdBy := 1, expiresAt := invitationTtl }

/-- A plan of two users. -/
def twoSeats : SeatRules := { billingUiEnabled := true, plan := some { name := "Duo", maxUsers := some 2 } }

theorem oneOpen_twoInvited : OneOpen twoInvited.invitations := by
  intro i j a b ha hb _ hopen _
  have hrows : ∀ k c, twoInvited.invitations.get? k = some c → (k, c) ∈ twoInvited.invitations.rows :=
    fun _ _ h => Table.mem_rows.mpr h
  have ha := hrows i a ha
  have hb := hrows j b hb
  simp only [twoInvited, Table.insert, Table.empty, List.nil_append, List.singleton_append, List.mem_cons,
    Prod.mk.injEq, List.not_mem_nil, or_false] at ha hb
  rcases ha with ⟨rfl, rfl⟩ | ⟨rfl, rfl⟩ <;> rcases hb with ⟨rfl, rfl⟩ | ⟨rfl, rfl⟩
  · rfl
  · simp at hopen
  · simp at hopen
  · rfl

/-- One of the two comes back. -/
theorem invitations_kept_one :
    InvitationsSafe (run (invitationStep twoSeats) { clock := 0, db := twoInvited }
        [.begin (.accept (some (1, "b@x")) ""), .lock 1, .check 1, .write 1, .commit 1]) ∧
      CapsKept twoSeats 1 (run (invitationStep twoSeats) { clock := 0, db := twoInvited }
        [.begin (.accept (some (1, "b@x")) ""), .lock 1, .check 1, .write 1, .commit 1]) := by
  obtain ⟨hsafe, hkept⟩ := invitations_kept twoSeats twoInvited 0 oneOpen_twoInvited
    [.begin (.accept (some (1, "b@x")) ""), .lock 1, .check 1, .write 1, .commit 1]
  refine ⟨hsafe, hkept 1 (by decide) (by decide) ⟨trivial, trivial, trivial, trivial, ?_, trivial⟩⟩
  intro tx write htx hphase
  obtain rfl := Option.some.inj htx
  obtain ⟨-, rfl⟩ := InvitationPhase.written.inj hphase
  exact le_of_eq (by decide)

/-- **Two accepts at once take three seats out of two**: the second waits for the lock,
and then counts in the snapshot it took before. -/
theorem seats_exceeded :
    countActive twoInvited.users 1 = 1 ∧
      (run (invitationStep twoSeats) { clock := 0, db := twoInvited }
        [.begin (.accept (some (1, "b@x")) ""), .begin (.accept (some (2, "c@x")) ""), .lock 1, .check 1, .write 1,
          .commit 1, .lock 2, .check 2, .write 2, .commit 2]).accepts.map (·.seats) = [3, 2] := by
  decide

end BetterDecision
