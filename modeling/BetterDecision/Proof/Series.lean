import BetterDecision.Proof.DeletePaths
import BetterDecision.Proof.Dates

/-!
# Templates written

A template is hired, amended or retired, and what it hands on to its rows moves no
total: rows linked to nothing are handed values while they are pending, and the two
legs of a pending pair are moved together. A frontier that an update moves lands past
the last occurrence spent, whether the user names it or a resume walks it there.
-/

namespace BetterDecision

variable {rules : Rules} {db db' : Db} {orgId : Nat}

/-! ## New templates -/

theorem wrote_hire (db : Db) {r : RecurringTransaction} (fresh : ∀ s ∈ r.lastSpentDate, s < r.nextDueDate) :
    Wrote rules db 0 0 (insertRecurring db r) :=
  ⟨.single (.hire (b := db.books) r fresh), (credit_zero _).symm, rfl⟩

theorem createRecurring_posted {today : Int} {body : RecurringCreate}
    (h : createRecurring db today orgId body = .ok db') : Posted rules db db' := by
  obtain ⟨-, -, h⟩ := bind_eq_ok.mp h
  obtain ⟨-, -, h⟩ := bind_eq_ok.mp h
  obtain ⟨-, -, h⟩ := bind_eq_ok.mp h
  obtain ⟨-, -, h⟩ := bind_eq_ok.mp h
  obtain rfl := Except.ok.inj h
  exact (wrote_hire db (by simp)).quiet

theorem promoteToRecurring_posted {today : Int} {id : Nat} {body : PromoteToRecurringRequest}
    (h : promoteToRecurring db today orgId id body = .ok db') : Posted rules db db' := by
  obtain ⟨-, -, h⟩ := bind_eq_ok.mp h
  obtain ⟨tx, -, h⟩ := bind_eq_ok.mp h
  obtain ⟨-, -, h⟩ := bind_eq_ok.mp h
  obtain ⟨-, -, h⟩ := bind_eq_ok.mp h
  obtain ⟨-, -, h⟩ := bind_eq_ok.mp h
  obtain ⟨-, -, h⟩ := bind_eq_ok.mp h
  rw [← Except.ok.inj h]
  refine ((wrote_editAside fun a _ => ?_).after (wrote_hire db ?_)).quiet
  · exact ⟨rfl, rfl, rfl, rfl, rfl, .inl ⟨rfl, rfl, rfl⟩⟩
  · intro s hs
    dsimp only at hs ⊢
    split at hs
    · rw [← Option.some.inj hs]
      simpa using ‹decide _ = true›
    · cases hs

/-! ## Frontiers -/

theorem le_walkFrontier {freq : Frequency} {pStart : Int} (steps : Nat) {d d' : Int}
    (h : walkFrontier freq pStart steps d = .ok d') : d ≤ d' := by
  induction steps generalizing d with
  | zero => exact (Except.ok.inj h).le
  | succ steps ih =>
    unfold walkFrontier at h
    split at h
    · obtain ⟨next, hnext, h⟩ := bind_eq_ok.mp h
      exact (lt_of_advanceDate hnext).le.trans (ih h)
    · exact (Except.ok.inj h).le

/-- What a resume leaves as it was, and that the frontier does not go back. -/
theorem resumeTemplate_ok {today : Int} {was r r' : RecurringTransaction} {body : RecurringUpdate}
    (h : resumeTemplate db today orgId was r body = .ok r') :
    ∃ next, r.nextDueDate ≤ next ∧ r' = { r with nextDueDate := next } := by
  unfold resumeTemplate at h
  dsimp only at h
  split at h
  · obtain ⟨next, hwalk, h⟩ := bind_eq_ok.mp h
    exact ⟨next, le_walkFrontier _ hwalk, (Except.ok.inj h).symm⟩
  · exact ⟨r.nextDueDate, le_refl _, (Except.ok.inj h).symm⟩

/-- A frontier that clears the series is past what the series has spent. -/
theorem lt_of_checkFrontier {recurringId : Nat} {r : RecurringTransaction} {oldNextDue s : Int}
    (h : checkFrontierClearsSeries db orgId recurringId r oldNextDue = .ok ()) (hs : r.lastSpentDate = some s) :
    s < r.nextDueDate := by
  have hspent : spentBound r oldNextDue = some s := by rw [spentBound, hs]
  unfold checkFrontierClearsSeries at h
  rw [hspent] at h
  have hmem : s ∈ (seriesDates db orgId recurringId).max?.toList ++ (some s).toList :=
    List.mem_append_right _ (List.mem_singleton_self s)
  dsimp only at h
  split at h
  · rename_i hnone
    rw [List.max?_eq_none_iff.mp hnone] at hmem
    cases hmem
  · rename_i bound hbound
    obtain ⟨floor, -, h⟩ := bind_eq_ok.mp h
    rw [refuse_eq_ok, not_not] at h
    exact lt_of_le_of_lt ((List.max?_eq_some_iff.mp hbound).2 s hmem) h.1

end BetterDecision
