import BetterDecision.Model.Members

/-!
# An organisation keeps an active owner

A call that goes through leaves another active owner among the rows it read
(`plan_leaves_owner`). Whether it leaves one among the committed rows depends on how
old its snapshot is: it does while the snapshot still shows the owners as they are.
Two calls at once, each with the other's owner in its snapshot, leave none.
-/

namespace BetterDecision

section

variable {users : Table User} {orgId id : Nat}

theorem mem_activeOwners : id ∈ activeOwners users orgId ↔ ∃ u, users.get? id = some u ∧ u.isActiveOwner orgId := by
  simp only [activeOwners, List.mem_map]
  constructor
  · rintro ⟨⟨i, u⟩, hmem, rfl⟩
    exact ⟨u, Table.mem_select.mp hmem⟩
  · rintro ⟨u, hu⟩
    exact ⟨(id, u), Table.mem_select.mpr hu, rfl⟩

theorem nodup_activeOwners (users : Table User) (orgId : Nat) : (activeOwners users orgId).Nodup := by
  have hsorted : (activeOwners users orgId).Pairwise (· < ·) :=
    users.sorted.sublist (List.filter_sublist.map Prod.fst)
  exact hsorted.imp Nat.ne_of_lt

/-- Two owners are more than one. -/
theorem exists_other_owner (hmem : id ∈ activeOwners users orgId) (hcount : ¬ (activeOwners users orgId).length ≤ 1) :
    ∃ j ∈ activeOwners users orgId, j ≠ id := by
  by_contra hnone
  have hall : ∀ j ∈ activeOwners users orgId, j = id := fun j hj => by
    by_contra hne
    exact hnone ⟨j, hj, hne⟩
  have hone : activeOwners users orgId = [id] := by
    have hnodup := nodup_activeOwners users orgId
    generalize activeOwners users orgId = owners at hmem hall hnodup
    rcases owners with _ | ⟨i, _ | ⟨j, rest⟩⟩
    · cases hmem
    · rw [hall i List.mem_cons_self]
    · have hij : i = j := by
        rw [hall i List.mem_cons_self, hall j (List.mem_cons_of_mem _ List.mem_cons_self)]
      exact absurd (hij ▸ List.mem_cons_self) (List.nodup_cons.mp hnodup).1
  exact hcount (by rw [hone]; exact le_rfl)

/-- A row other than the one written is an owner's as before. -/
theorem mem_activeOwners_apply_of_ne {write : UserWrite} (hne : id ≠ write.row) :
    id ∈ activeOwners (write.apply users) orgId ↔ id ∈ activeOwners users orgId := by
  rw [mem_activeOwners, mem_activeOwners]
  cases write with
  | update row role isActive =>
    have hget := Table.get?_modify_of_ne (t := users) (i := row) (j := id)
      (f := fun u => { u with role := role.getD u.role, isActive := isActive.getD u.isActive }) hne
    rw [UserWrite.apply, hget]
  | delete row =>
    rw [UserWrite.apply, Table.get?_remove, if_neg (by simpa [UserWrite.row] using hne)]

/-- It leaves an active owner one: no demotion, no deactivation. -/
def UserWrite.KeepsOwner : UserWrite → Prop
  | .update _ role isActive => role.getD .owner = .owner ∧ isActive.getD true = true
  | .delete _ => False

theorem UserWrite.KeepsOwner.mem {write : UserWrite} (h : write.KeepsOwner)
    (hmem : write.row ∈ activeOwners users orgId) : write.row ∈ activeOwners (write.apply users) orgId := by
  cases write with
  | delete row => exact h.elim
  | update row role isActive =>
    obtain ⟨u, hu, howner⟩ := mem_activeOwners.mp hmem
    refine mem_activeOwners.mpr ⟨_, Table.get?_modify_self hu, ?_⟩
    obtain ⟨hrole, hactive⟩ := h
    simp only [User.isActiveOwner, Bool.and_eq_true, beq_iff_eq] at howner ⊢
    obtain ⟨⟨horg, hwas⟩, hwasActive⟩ := howner
    rw [hwas, hwasActive]
    exact ⟨⟨horg, hrole⟩, hactive⟩

/-! ## What a call leaves, among the rows it read -/

/-- The write keeps its row's owner, or there is another. -/
def LeavesOwner (users : Table User) (write : UserWrite) : Prop :=
  ∀ orgId, write.row ∈ activeOwners users orgId →
    write.KeepsOwner ∨ ∃ j ∈ activeOwners users orgId, j ≠ write.row

variable {write : UserWrite}

theorem loadMember_ok {u : User} (h : loadMember users orgId id = .ok u) :
    users.get? id = some u ∧ u.orgId = orgId := by
  obtain ⟨hget, horg⟩ := Option.filter_eq_some_iff.mp (found_eq_ok.mp h)
  exact ⟨hget, by simpa using horg⟩

/-- An active owner of some org is one of the org its row says. -/
theorem org_of_owner {u : User} (hget : users.get? id = some u) (hmem : id ∈ activeOwners users orgId) :
    u.orgId = orgId ∧ u.role = .owner ∧ u.isActive = true := by
  obtain ⟨v, hv, howner⟩ := mem_activeOwners.mp hmem
  obtain rfl := Option.some.inj (hget.symm.trans hv)
  simpa [User.isActiveOwner, and_assoc] using howner

theorem removeMember_leaves {actor : Nat × User} (h : removeMember users orgId actor id = .ok (some write)) :
    LeavesOwner users write := by
  obtain ⟨_, -, h⟩ := bind_eq_ok.mp h
  obtain ⟨target, hload, h⟩ := bind_eq_ok.mp h
  obtain ⟨hget, horg⟩ := loadMember_ok hload
  obtain ⟨_, -, h⟩ := bind_eq_ok.mp h
  split at h
  · cases h
  · obtain ⟨_, -, h⟩ := bind_eq_ok.mp h
    obtain ⟨_, hlast, h⟩ := bind_eq_ok.mp h
    obtain rfl := Option.some.inj (Except.ok.inj h)
    intro org hmem
    obtain ⟨horg', hrole, -⟩ := org_of_owner hget hmem
    rw [← horg', horg] at hmem ⊢
    exact .inr (exists_other_owner hmem fun hcount => refuse_eq_ok.mp hlast ⟨hrole, hcount⟩)

theorem updateMember_leaves {actorId : Nat} {role : Option Role} {isActive : Option Bool}
    (h : updateMember users orgId id actorId role isActive = .ok (some write)) : LeavesOwner users write := by
  obtain ⟨_, -, h⟩ := bind_eq_ok.mp h
  obtain ⟨_, -, h⟩ := bind_eq_ok.mp h
  obtain ⟨target, hload, h⟩ := bind_eq_ok.mp h
  obtain ⟨hget, horg⟩ := loadMember_ok hload
  obtain ⟨_, -, h⟩ := bind_eq_ok.mp h
  obtain ⟨_, hlast, h⟩ := bind_eq_ok.mp h
  dsimp only at h
  split at h
  · cases h
  · obtain rfl := Option.some.inj (Except.ok.inj h)
    intro org hmem
    obtain ⟨horg', hrole, hactive⟩ := org_of_owner hget hmem
    rw [← horg', horg] at hmem ⊢
    by_cases hloses : (isActive = some false ∧ target.isActive = true) ∨
        (role ≠ none ∧ target.role = .owner ∧ role ≠ some .owner)
    · exact .inr (exists_other_owner hmem fun hcount => refuse_eq_ok.mp hlast ⟨hloses, hrole, hcount⟩)
    · obtain ⟨hstays, hkeeps⟩ := not_or.mp hloses
      refine .inl ⟨?_, ?_⟩
      · rcases role with _ | role
        · rfl
        · have hsame : role = .owner := by
            by_contra hne
            exact hkeeps ⟨by simp, hrole, by simpa using hne⟩
          rw [hsame, hrole]
          rfl
      · rcases isActive with _ | _ | _
        · rfl
        · exact absurd ⟨rfl, hactive⟩ hstays
        · rw [hactive]
          rfl

theorem mergeUsers_leaves {target : Nat} (h : mergeUsers users id target = .ok (some write)) :
    LeavesOwner users write := by
  obtain ⟨_, hself, h⟩ := bind_eq_ok.mp h
  obtain ⟨source, hsource, h⟩ := bind_eq_ok.mp h
  obtain ⟨other, htarget, h⟩ := bind_eq_ok.mp h
  obtain ⟨_, -, h⟩ := bind_eq_ok.mp h
  obtain ⟨_, -, h⟩ := bind_eq_ok.mp h
  obtain ⟨_, hlast, h⟩ := bind_eq_ok.mp h
  obtain rfl := Option.some.inj (Except.ok.inj h)
  intro org hmem
  obtain ⟨rfl, hrole, hactive⟩ := org_of_owner (found_eq_ok.mp hsource) hmem
  refine .inr ?_
  by_cases hpreserves : other.isActiveOwner source.orgId = true
  · exact ⟨target, mem_activeOwners.mpr ⟨other, found_eq_ok.mp htarget, hpreserves⟩,
      fun he => refuse_eq_ok.mp hself he.symm⟩
  · have hothers : ((activeOwners users source.orgId).filter (· ≠ id)).length ≠ 0 := fun hzero =>
      refuse_eq_ok.mp hlast ⟨hrole, hactive, hzero, hpreserves⟩
    obtain ⟨j, hj⟩ := List.exists_mem_of_length_pos (Nat.pos_of_ne_zero hothers)
    obtain ⟨hjmem, hne⟩ := List.mem_filter.mp hj
    exact ⟨j, hjmem, by simpa [UserWrite.row] using hne⟩

/-- It deletes nobody it read as active. -/
theorem deleteUser_leaves {actorId : Nat} (h : deleteUser users id actorId = .ok (some write)) :
    LeavesOwner users write := by
  obtain ⟨target, htarget, h⟩ := bind_eq_ok.mp h
  obtain ⟨_, -, h⟩ := bind_eq_ok.mp h
  obtain ⟨_, -, h⟩ := bind_eq_ok.mp h
  obtain ⟨_, hinactive, h⟩ := bind_eq_ok.mp h
  obtain rfl := Option.some.inj (Except.ok.inj h)
  intro org hmem
  obtain ⟨-, -, hactive⟩ := org_of_owner (found_eq_ok.mp htarget) hmem
  exact absurd hactive (refuse_eq_ok.mp hinactive)

/-- **A call that goes through** keeps its row's owner, or leaves another of that org,
among the rows it read. -/
theorem plan_leaves_owner {call : MemberCall} (h : call.plan users = .ok (some write)) : LeavesOwner users write := by
  obtain ⟨actor, -, h⟩ := bind_eq_ok.mp h
  cases call with
  | removeMember => exact removeMember_leaves h
  | updateMember => exact updateMember_leaves h
  | mergeUsers => exact mergeUsers_leaves h
  | deleteUser => exact deleteUser_leaves h

end

/-! ## Runs -/

/-- Some user of the org is an active owner. -/
def HasActiveOwner (users : Table User) (orgId : Nat) : Prop := ∃ id, id ∈ activeOwners users orgId

/-- A commit that takes an active owner away finds the org's owners as its snapshot
shows them. -/
def OwnersCurrent (orgId : Nat) (w : MemberWorld) : MemberEvent → Prop
  | .commit id => ∀ tx write, w.txs.get? id = some tx → tx.phase = .written write →
      write.row ∈ activeOwners w.users orgId → write.row ∉ activeOwners (write.apply w.users) orgId →
        activeOwners tx.snapshot orgId = activeOwners w.users orgId
  | _ => True

/-- What a transaction has written is what its call decided on its snapshot. -/
def WritesPlanned (w : MemberWorld) : Prop :=
  ∀ id tx write, w.txs.get? id = some tx → tx.phase = .written write → tx.call.plan tx.snapshot = .ok (some write)

/-- A transaction moved, and no row is committed. -/
theorem WritesPlanned.goto {w : MemberWorld} (h : WritesPlanned w) {id : Nat} {phase : MemberPhase}
    (hphase : ∀ tx write, w.txs.get? id = some tx → phase = .written write → tx.call.plan tx.snapshot = .ok (some write)) :
    WritesPlanned (w.goto id phase) := by
  intro i tx write htx hwritten
  obtain ⟨old, hold, rfl⟩ := Table.get?_modify_eq_some.mp htx
  by_cases hi : i = id
  · subst hi
    rw [if_pos rfl] at hwritten ⊢
    exact hphase old write hold hwritten
  · rw [if_neg hi] at hwritten ⊢
    exact h i old write hold hwritten

/-- **One step** keeps an owner, if its snapshot does not hide that the other is gone. -/
theorem memberStep_keeps {orgId : Nat} {w w' : MemberWorld} {ev : MemberEvent}
    (h : WritesPlanned w ∧ HasActiveOwner w.users orgId) (hcurrent : OwnersCurrent orgId w ev)
    (hstep : memberStep w ev = .ok w') : WritesPlanned w' ∧ HasActiveOwner w'.users orgId := by
  obtain ⟨hplanned, howner⟩ := h
  cases ev with
  | begin call =>
    obtain rfl := Except.ok.inj hstep
    refine ⟨fun i tx write htx hwritten => ?_, howner⟩
    rw [Table.get?_insert] at htx
    split at htx
    · obtain rfl := Option.some.inj htx
      cases hwritten
    · exact hplanned i tx write htx hwritten
  | write id =>
    obtain ⟨tx, htx, hstep⟩ := bind_eq_ok.mp hstep
    have hdone : ∀ outcome, WritesPlanned (w.goto id (.done outcome)) := fun outcome =>
      hplanned.goto fun _ _ _ hphase => by cases hphase
    split at hstep
    · split at hstep
      · exact Except.ok.inj hstep ▸ ⟨hdone _, howner⟩
      · exact Except.ok.inj hstep ▸ ⟨hdone _, howner⟩
      · rename_i write hplan
        obtain ⟨_, -, hstep⟩ := bind_eq_ok.mp hstep
        have hwrites : WritesPlanned (w.goto id (.written write)) := hplanned.goto fun tx' write' htx' hphase => by
          obtain rfl := MemberPhase.written.inj hphase
          obtain rfl := Option.some.inj ((found_eq_ok.mp htx).symm.trans htx')
          exact hplan
        unfold writeRow at hstep
        split at hstep
        · split at hstep
          · exact Except.ok.inj hstep ▸ ⟨hwrites, howner⟩
          · exact Except.ok.inj hstep ▸ ⟨hdone _, howner⟩
        · exact Except.ok.inj hstep ▸ ⟨hwrites, howner⟩
    · cases hstep
  | commit id =>
    obtain ⟨tx, htx, hstep⟩ := bind_eq_ok.mp hstep
    split at hstep
    · rename_i write hphase
      obtain rfl := Except.ok.inj hstep
      have htx := found_eq_ok.mp htx
      refine ⟨fun i tx' write' htx' hwritten => ?_, ?_⟩
      · exact hplanned.goto (fun _ _ _ hphase => by cases hphase) i tx' write' htx' hwritten
      -- an owner other than the row written stays one
      · obtain ⟨j, hj⟩ := howner
        by_cases hjrow : j = write.row
        · subst hjrow
          by_cases hkept : write.row ∈ activeOwners (write.apply w.users) orgId
          · exact ⟨_, hkept⟩
          · have hsame := hcurrent tx write htx hphase hj hkept
            rcases plan_leaves_owner (hplanned id tx write htx hphase) orgId (hsame ▸ hj) with hkeeps | ⟨k, hk, hne⟩
            · exact absurd (hkeeps.mem hj) hkept
            · exact ⟨k, (mem_activeOwners_apply_of_ne hne).mpr (hsame ▸ hk)⟩
        · exact ⟨j, (mem_activeOwners_apply_of_ne hjrow).mpr hj⟩
    · cases hstep
  | fail id =>
    obtain ⟨tx, htx, hstep⟩ := bind_eq_ok.mp hstep
    have hdone : WritesPlanned (w.goto id (.done (.error .crashed))) :=
      hplanned.goto fun _ _ _ hphase => by cases hphase
    split at hstep
    · cases hstep
    · exact Except.ok.inj hstep ▸ ⟨hdone, howner⟩

/-- **An organisation keeps an active owner** in every run in which no commit takes one
away behind the back of a snapshot. -/
theorem activeOwner_kept (users : Table User) (orgId : Nat) (hstart : HasActiveOwner users orgId)
    (events : List MemberEvent) (hcurrent : Guarded memberStep (OwnersCurrent orgId) { users } events) :
    HasActiveOwner (run memberStep { users } events).users orgId :=
  (run_invariant_of_guarded (fun _ _ _ h hg hs => memberStep_keeps h hg hs) events hcurrent
    ⟨fun _ _ _ htx => by simp at htx, hstart⟩).2

/-- Two owners, and a plain member. -/
def twoOwners : Table User :=
  ((Table.empty.insert { orgId := 1, role := .owner }).insert { orgId := 1, role := .owner }).insert { orgId := 1 }

/-- One owner removes the other. -/
theorem activeOwner_kept_removal :
    HasActiveOwner (run memberStep { users := twoOwners } [.begin (.removeMember 1 1 2), .write 1, .commit 1]).users 1 :=
  activeOwner_kept twoOwners 1 ⟨1, by decide⟩ _ (by
    refine ⟨trivial, trivial, ?_, trivial⟩
    intro tx write htx hphase _ _
    obtain rfl := Option.some.inj htx
    decide)

/-- **Two owners who remove each other at once are both gone**: each is still there in the
other's snapshot. -/
theorem activeOwners_lost :
    activeOwners twoOwners 1 = [1, 2] ∧
      ¬ HasActiveOwner (run memberStep { users := twoOwners }
        [.begin (.removeMember 1 1 2), .begin (.removeMember 1 2 1), .write 1, .write 2, .commit 1, .commit 2]).users 1 := by
  refine ⟨by decide, fun h => ?_⟩
  obtain ⟨id, hid⟩ := h
  have hnone : activeOwners (run memberStep { users := twoOwners }
      [.begin (.removeMember 1 1 2), .begin (.removeMember 1 2 1), .write 1, .write 2, .commit 1, .commit 2]).users 1 = [] := by
    decide
  rw [hnone] at hid
  cases hid

end BetterDecision
