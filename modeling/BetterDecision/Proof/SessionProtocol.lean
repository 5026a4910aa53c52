import BetterDecision.Proof.AuthSessions

/-!
# The session protocol

What the calls on a family answer, now and in every continuation, and the one run that
answers something else: a family refreshed a thousand times in an instant.
-/

namespace BetterDecision

/-! ## The protocol -/

/-- Some rotation presenting the jti would go through. -/
def Rotates (w : SessionWorld) (now : Int) (jti : String) : Prop :=
  ∃ newJti sid userId idleTtl db, sessionRotate w.db now jti newJti sid userId idleTtl = .ok (db, .ok)

/-- The call revokes the family. -/
def Revokes (w : SessionWorld) (now : Int) (f : AuthSessionFamily) : SessionCall → Prop
  | .revokeFamily sid => sid = f.sid
  | .revokeUser userId keepSids => userId = f.userId ∧ f.sid ∉ keepSids
  | .detectReuseAndRevoke jti sid =>
    sid = f.sid ∧ ∃ n, (sessionDetectReuseAndRevoke w.db now jti sid).2 = .reused n
  | _ => False

/-- What the calls made now answer. -/
structure SessionProtocol (w : SessionWorld) (now : Int) : Prop where
  /-- At most one jti of a family validates. -/
  one_valid : ∀ jti jti' r r', sessionValidate w.db now jti = some r →
    sessionValidate w.db now jti' = some r' → r.sid = r'.sid → jti = jti'
  /-- Grace goes to the jtis whose own successor is less than 30 s old, and to no others. -/
  grace_iff : ∀ jti sid, (∃ r, sessionGrace w.db now jti = some r ∧ r.1.sid = sid) ↔
    ∃ f, lockFamily w.db sid = some f ∧ f.Live now ∧ RotatedOutLately w f jti now
  /-- Neither of these is ever a head. -/
  lately_ne_head : ∀ f ∈ w.db.families, ∀ jti, RotatedOutLately w f jti now → jti ≠ f.headJti
  /-- Reuse is a jti issued for the live family, not its head and not rotated out lately. -/
  reused_iff : ∀ jti sid, Unhurried w now (.detectReuseAndRevoke jti sid) →
    ((∃ n, (sessionDetectReuseAndRevoke w.db now jti sid).2 = .reused n) ↔
      ∃ f, lockFamily w.db sid = some f ∧ f.Live now ∧ IssuedFor w f jti ∧ jti ≠ f.headJti ∧
        ¬ RotatedOutLately w f jti now)
  /-- Reuse takes down the whole family, and nothing else. -/
  reused_drops : ∀ jti sid n, (sessionDetectReuseAndRevoke w.db now jti sid).2 = .reused n →
    (sessionDetectReuseAndRevoke w.db now jti sid).1 = dropFamilies w.db [sid]

/-- A jti whose rotation went through is never rotated again. -/
def RotatesOnce (w : SessionWorld) : Prop :=
  ∀ now oldJti newJti sid userId idleTtl db, w.clock ≤ now →
    FreshJti w (.rotate oldJti newJti sid userId idleTtl) →
    sessionRotate w.db now oldJti newJti sid userId idleTtl = .ok (db, .ok) →
    Unhurried w now (.rotate oldJti newJti sid userId idleTtl) →
    ∀ later, Guarded sessionStep OrderlyCall
      (serve sessionStep w (now, .rotate oldJti newJti sid userId idleTtl)) later →
    ∀ now', ¬ Rotates
      (run sessionStep (serve sessionStep w (now, .rotate oldJti newJti sid userId idleTtl)) later) now' oldJti

/-- No jti of a revoked family validates, rotates or is graced again. -/
def RevokesForGood (w : SessionWorld) : Prop :=
  ∀ now call f, w.clock ≤ now → OrderlyCall w (now, call) → f ∈ w.db.families → Revokes w now f call →
    ∀ jti, IssuedFor w f jti →
    ∀ later, Guarded sessionStep OrderlyCall (serve sessionStep w (now, call)) later →
    ∀ now', (run sessionStep (serve sessionStep w (now, call)) later).clock ≤ now' →
      sessionValidate (run sessionStep (serve sessionStep w (now, call)) later).db now' jti = none ∧
      sessionGrace (run sessionStep (serve sessionStep w (now, call)) later).db now' jti = none ∧
      ¬ Rotates (run sessionStep (serve sessionStep w (now, call)) later) now' jti

/-- The world after a call that goes through. -/
theorem serve_eq {w : SessionWorld} {now : Int} {call : SessionCall} {db : StateDb} (hnow : w.clock ≤ now)
    (h : sessionTables w.db now call = .ok db) :
    serve sessionStep w (now, call) = { db, clock := now, issued := issuedBy w.db now call ++ w.issued } := by
  refine serve_of_ok ?_
  rw [sessionStep, refuse_eq_ok (u := ()) |>.mpr (not_lt.mpr hnow), h]
  rfl

theorem detect_reused_drops {db : StateDb} {now : Int} {jti sid : String} {n : Nat}
    (h : (sessionDetectReuseAndRevoke db now jti sid).2 = .reused n) :
    (sessionDetectReuseAndRevoke db now jti sid).1 = dropFamilies db [sid] := by
  unfold sessionDetectReuseAndRevoke at h ⊢
  split at h
  · cases h
  · split at h
    · cases h
    · rename_i hlive
      split at h
      · cases h
      · rename_i hhead
        split at h
        · cases h
        · rename_i hknown
          split at h
          · cases h
          · rename_i hgrace
            rw [if_neg hlive, if_neg hhead, if_neg hknown, if_neg hgrace]

theorem FamilyInv.protocol {w : SessionWorld} {now : Int} (h : FamilyInv w) (hold : PrunedOld w)
    (hnow : w.clock ≤ now) : SessionProtocol w now where
  one_valid := by
    intro jti jti' r r' hr hr' hsid
    obtain ⟨f, hf, -, rfl, rfl⟩ := h.sessionValidate_eq_some.mp hr
    obtain ⟨f', hf', -, rfl, rfl⟩ := h.sessionValidate_eq_some.mp hr'
    rw [h.families.eq_of_key hf hf' hsid]
  grace_iff := by
    intro jti sid
    constructor
    · rintro ⟨r, hr, rfl⟩
      obtain ⟨f, hf, hlive, hlately, rfl⟩ := (h.sessionGrace_eq_some hold hnow).mp hr
      exact ⟨f, h.lockFamily_eq_some.mpr ⟨hf, rfl⟩, hlive, hlately⟩
    · rintro ⟨f, hrow, hlive, hlately⟩
      obtain ⟨hf, rfl⟩ := h.lockFamily_eq_some.mp hrow
      exact ⟨_, (h.sessionGrace_eq_some hold hnow).mpr ⟨f, hf, hlive, hlately, rfl⟩, rfl⟩
  lately_ne_head := by
    rintro f hf _ ⟨s, hs, m, _, hm, rfl, -⟩
    exact h.ne_head hf hs hm
  reused_iff := fun _ _ hasked => h.detect_reused_iff hold hnow hasked
  reused_drops := fun _ _ _ => detect_reused_drops

/-- The jti whose rotation goes through is spent. -/
theorem spent_of_rotate {w : SessionWorld} {now idleTtl : Int} {oldJti newJti sid : String} {userId : Nat}
    {db : StateDb} (h : FamilyInv w) (hnow : w.clock ≤ now)
    (hfresh : FreshJti w (.rotate oldJti newJti sid userId idleTtl))
    (hrot : sessionRotate w.db now oldJti newJti sid userId idleTtl = .ok (db, .ok)) :
    Spent (serve sessionStep w (now, .rotate oldJti newJti sid userId idleTtl)) oldJti := by
  obtain ⟨fam, hrow, -, hhead, ⟨m, hm, rfl, hms⟩, -, rfl⟩ := sessionRotate_ok hrot
  obtain ⟨hfam, rfl⟩ := h.lockFamily_eq_some.mp hrow
  have hmi : m ∈ w.issued := (number_spec (h.number_of_mem hm)).1
  rw [serve_eq hnow (by rw [sessionTables, hrot]; rfl)]
  refine ⟨⟨m, List.mem_append_right _ hmi, rfl⟩, fun g hg => ?_⟩
  obtain ⟨f, hf, rfl⟩ := mem_rotatedFamilies.mp hg
  unfold rotatedFamily
  split
  · exact (hfresh m hmi).symm
  · rename_i hne
    -- the head of another family is another jti
    intro he
    obtain ⟨top, htop⟩ := h.numbered f hf f.rotations (le_refl _)
    exact hne ((h.eq_of_number htop (h.number_of_mem hm) ((h.head f hf top htop).trans he)).1.trans hms)

theorem not_rotates_of_spent {w : SessionWorld} {now : Int} {jti : String} (hs : Spent w jti) :
    ¬ Rotates w now jti := by
  rintro ⟨newJti, sid, userId, idleTtl, db, hrot⟩
  obtain ⟨fam, hrow, -, hhead, -⟩ := sessionRotate_ok hrot
  exact hs.2 fam (mem_of_rowAt hrow) hhead

/-- What becomes of the jtis of a revoked family. -/
theorem dead_of_revokes {w : SessionWorld} {now : Int} {call : SessionCall} {f : AuthSessionFamily} {jti : String}
    (h : FamilyInv w) (hnow : w.clock ≤ now) (hf : f ∈ w.db.families) (hr : Revokes w now f call)
    (hissued : IssuedFor w f jti) : Dead (serve sessionStep w (now, call)) jti := by
  obtain ⟨s, hs, m, hm, rfl⟩ := hissued
  obtain ⟨hmi, -, -⟩ := number_spec hm
  -- a member of that jti is a member of that family
  have hsid : ∀ n ∈ w.db.members, n.jti = m.jti → n.sid = f.sid := fun n hn hj =>
    (h.eq_of_number (h.number_of_mem hn) hm hj).1
  have hrow : lockFamily w.db f.sid = some f := h.lockFamily_eq_some.mpr ⟨hf, rfl⟩
  have dropped : ∀ sids, f.sid ∈ sids →
      Dead { db := dropFamilies w.db sids, clock := now, issued := w.issued } m.jti := fun sids hin =>
    ⟨⟨m, hmi, rfl⟩, fun n hn hj => absurd ((hsid n (mem_dropMembers.mp hn).1 hj) ▸ hin) (mem_dropMembers.mp hn).2⟩
  cases call with
  | revokeFamily sid =>
    obtain rfl := hr
    rw [serve_eq hnow rfl]
    dsimp only [issuedBy, List.nil_append]
    unfold sessionRevokeFamily
    rw [hrow]
    dsimp only
    split
    · rename_i hlapsed
      refine ⟨⟨m, hmi, rfl⟩, fun n hn hj g hg hgs => ?_⟩
      rwa [h.families.eq_of_key hg hf (hgs.trans (hsid n hn hj))]
    · exact dropped [f.sid] (List.mem_singleton_self _)
  | revokeUser userId keepSids =>
    obtain ⟨rfl, hkeep⟩ := hr
    rw [serve_eq hnow rfl]
    refine dropped _ (List.mem_filter.mpr ⟨List.mem_map.mpr ⟨f, List.mem_filter.mpr ⟨hf, by simp⟩, rfl⟩, ?_⟩)
    simpa using hkeep
  | detectReuseAndRevoke jti sid =>
    obtain ⟨rfl, n, hn⟩ := hr
    rw [serve_eq hnow rfl, detect_reused_drops hn]
    exact dropped [f.sid] (List.mem_singleton_self _)
  | issue _ _ _ _ _ _ | purge _ _ | validate _ | grace _ | rotate _ _ _ _ _ => exact hr.elim

theorem answers_of_dead {w : SessionWorld} {now : Int} {jti : String} (h : FamilyInv w) (hd : Dead w jti)
    (hnow : w.clock ≤ now) :
    sessionValidate w.db now jti = none ∧ sessionGrace w.db now jti = none ∧ ¬ Rotates w now jti := by
  have lapsed : ∀ m f, memberFamily w.db jti = some (m, f) → ¬ f.Live now := by
    intro m f hmf hlive
    obtain ⟨hm, hj, hf, hs⟩ := h.memberFamily_eq_some.mp hmf
    exact hd.2 m hm hj f hf hs (lt_of_le_of_lt hnow hlive)
  refine ⟨?_, ?_, ?_⟩
  · rw [sessionValidate, Option.map_eq_none_iff, Option.filter_eq_none_iff]
    rintro ⟨m, f⟩ hmf
    simp [lapsed m f hmf]
  · rw [sessionGrace, Option.map_eq_none_iff, Option.filter_eq_none_iff]
    rintro ⟨m, f⟩ hmf
    simp [lapsed m f hmf]
  · rintro ⟨newJti, sid, userId, idleTtl, db, hrot⟩
    obtain ⟨fam, hrow, hlive, -, ⟨m, hm, hj, hms⟩, -⟩ := sessionRotate_ok hrot
    obtain ⟨hfam, rfl⟩ := h.lockFamily_eq_some.mp hrow
    exact hd.2 m hm hj fam hfam hms.symm (lt_of_le_of_lt hnow hlive)

/-- A call that is made is made with the invariant around it. -/
theorem serve_inv {w : SessionWorld} {c : Int × SessionCall} (h : FamilyInv w ∧ PrunedOld w) (hg : OrderlyCall w c) :
    FamilyInv (serve sessionStep w c) ∧ PrunedOld (serve sessionStep w c) :=
  serve_invariant (I := fun w => FamilyInv w ∧ PrunedOld w) (fun _ hstep => sessionStep_inv h hg hstep) h

/-- A sign-in, two refreshes and the first jti presented again inside its grace. -/
def twoRefreshes : List (Int × SessionCall) :=
  [(0, .issue "a" "s" 7 3600 [] (fun _ => 0)), (1, .rotate "a" "b" "s" 7 3600),
    (2, .rotate "b" "c" "s" 7 3600), (3, .detectReuseAndRevoke "a" "s")]

/-- **The holder of the head can always rotate**: nothing clashes. -/
theorem FamilyInv.sessionRotate_head {w : SessionWorld} (h : FamilyInv w) {fam : AuthSessionFamily}
    {now idleTtl : Int} {newJti : String} (hfam : fam ∈ w.db.families) (hlive : fam.Live now)
    (hfresh : ∀ m ∈ w.issued, m.jti ≠ newJti) :
    sessionRotate w.db now fam.headJti newJti fam.sid fam.userId idleTtl =
      .ok (rotated { w.db with members := w.db.members ++
        [{ jti := newJti, sid := fam.sid, seq := fam.rotations + 1, createdAt := now }] } now newJti fam idleTtl,
        .ok) := by
  have hrow : lockFamily w.db fam.sid = some fam := h.lockFamily_eq_some.mpr ⟨hfam, rfl⟩
  obtain ⟨m, hm⟩ := h.numbered fam hfam fam.rotations (le_refl _)
  obtain ⟨-, hsid, hseq⟩ := number_spec hm
  have hmem : m ∈ w.db.members := (h.member_iff m).mpr
    ⟨fam, hfam, hsid.symm, hseq.le, by rw [hseq]; exact Nat.lt_add_of_pos_right (by decide), by rw [hsid, hseq]; exact hm⟩
  have hseen : memberSeq w.db fam.sid fam.headJti ≠ none :=
    memberSeq_ne_none.mpr ⟨m, hmem, h.head fam hfam m hm, hsid⟩
  have hjti : ¬ w.db.members.any (fun n => n.jti == newJti) = true := by
    rw [List.any_eq_true]
    rintro ⟨n, hn, he⟩
    exact hfresh n (number_spec (h.number_of_mem hn)).1 (by simpa using he)
  have hnum : ¬ w.db.members.any (fun n => n.sid == fam.sid && n.seq == fam.rotations + 1) = true := by
    rw [List.any_eq_true]
    rintro ⟨n, hn, he⟩
    simp only [Bool.and_eq_true, beq_iff_eq] at he
    obtain ⟨f, hf, hfs, hle, -⟩ := (h.member_iff n).mp hn
    obtain rfl := h.families.eq_of_key hf hfam (hfs.trans he.1)
    omega
  unfold sessionRotate insertMember
  rw [hrow]
  simp [hlive, hseen, hjti, hnum]

theorem toString_injective : Function.Injective (toString : Nat → String) := by
  intro a b h
  rw [Nat.toString_eq_repr, Nat.toString_eq_repr] at h
  have hdigits := congrArg String.toList h
  rw [Nat.toList_repr, Nat.toList_repr] at hdigits
  have := congrArg (fun l => Nat.ofDigitChars 10 l 0) hdigits
  simpa [Nat.ofDigitChars_ten_toDigits] using this

/-- A sign-in and `n` refreshes, all at time 0; the jtis are "0", "1", "2". -/
def burst (n : Nat) : List (Int × SessionCall) :=
  (0, .issue "0" "s" 7 3600 [] (fun _ => 0)) ::
    (List.range n).map (fun i => (0, .rotate (toString i) (toString (i + 1)) "s" 7 3600))

/-- The `i`-th jti of a burst. -/
def burstMember (i : Nat) : AuthSessionMember := { jti := toString i, sid := "s", seq := i, createdAt := 0 }

/-- The family after `n` refreshes at time 0. -/
def burstFamily (n : Nat) : AuthSessionFamily :=
  { sid := "s", userId := 7, headJti := toString n, rotations := n, expiresAt := 3600000000 }

/-- What a burst of `n` refreshes leaves. -/
structure Burst (n : Nat) (w : SessionWorld) : Prop where
  inv : FamilyInv w
  clock : w.clock = 0
  families : w.db.families = [burstFamily n]
  issued : ∀ m, m ∈ w.issued ↔ ∃ i ≤ n, m = burstMember i

theorem burst_succ (n : Nat) :
    burst (n + 1) = burst n ++ [(0, .rotate (toString n) (toString (n + 1)) "s" 7 3600)] := by
  simp [burst, List.range_succ]

theorem Burst.fresh {n : Nat} {w : SessionWorld} (h : Burst n w) : ∀ m ∈ w.issued, m.jti ≠ toString (n + 1) := by
  intro m hm he
  obtain ⟨i, hi, rfl⟩ := (h.issued m).mp hm
  have := toString_injective (show toString i = toString (n + 1) from he)
  omega

theorem Burst.next {n : Nat} {w : SessionWorld} (h : Burst n w) :
    Burst (n + 1) (serve sessionStep w (0, .rotate (toString n) (toString (n + 1)) "s" 7 3600)) := by
  have hfam : burstFamily n ∈ w.db.families := by rw [h.families]; exact List.mem_singleton_self _
  have hrow : lockFamily w.db "s" = some (burstFamily n) := h.inv.lockFamily_eq_some.mpr ⟨hfam, rfl⟩
  have hrot : sessionRotate w.db 0 (toString n) (toString (n + 1)) "s" 7 3600 = _ :=
    h.inv.sessionRotate_head hfam (show (0 : Int) < 3600000000 by decide) h.fresh
  have hissued : issuedBy w.db 0 (.rotate (toString n) (toString (n + 1)) "s" 7 3600) = [burstMember (n + 1)] := by
    rw [issuedBy, hrot, hrow]
    rfl
  rw [serve_eq h.clock.le (by rw [sessionTables, hrot]; rfl), hissued]
  refine ⟨h.inv.rotate 0 3600 hrow ?_ h.fresh, rfl, ?_, fun m => ?_⟩
  · exact fun m hm => h.fresh m (number_spec (h.inv.number_of_mem hm)).1
  · rw [rotated, h.families]
    rfl
  · rw [List.singleton_append, List.mem_cons, h.issued]
    constructor
    · rintro (rfl | ⟨i, hi, rfl⟩)
      · exact ⟨n + 1, le_refl _, rfl⟩
      · exact ⟨i, by omega, rfl⟩
    · rintro ⟨i, hi, rfl⟩
      rcases Nat.lt_or_ge n i with hlt | hge
      · obtain rfl : i = n + 1 := by omega
        exact .inl rfl
      · exact .inr ⟨i, hge, rfl⟩

/-- Every jti of a burst is new. -/
theorem burst_spec (n : Nat) :
    Burst n (run sessionStep {} (burst n)) ∧
      Guarded sessionStep (fun w c => FreshJti w c.2) {} (burst n) := by
  induction n with
  | zero =>
    refine ⟨⟨(familyInv_init 0).issue 7 3600 0 rfl (by simp) (by simp), rfl, rfl, fun m => ?_⟩, by decide⟩
    constructor
    · intro hm
      exact ⟨0, le_refl _, List.mem_singleton.mp hm⟩
    · rintro ⟨i, hi, rfl⟩
      obtain rfl := Nat.le_zero.mp hi
      exact List.mem_singleton_self _
  | succ n ih =>
    obtain ⟨hburst, hfresh⟩ := ih
    rw [burst_succ, run_concat, guarded_append]
    exact ⟨hburst.next, hfresh, hburst.fresh, trivial⟩

/-- After `n ≥ 1000` refreshes at one instant the first jti, still in its grace, is
classified as reuse. -/
theorem Burst.reused {n : Nat} {w : SessionWorld} (h : Burst n w) (hn : keepMembers ≤ n) :
    RotatedOutLately w (burstFamily n) "0" 0 ∧
      (sessionDetectReuseAndRevoke w.db 0 "0" "s").2 = .reused (n + 1) := by
  have hpos : 1000 ≤ n := hn
  have hfam : burstFamily n ∈ w.db.families := by rw [h.families]; exact List.mem_singleton_self _
  have hrow : lockFamily w.db "s" = some (burstFamily n) := h.inv.lockFamily_eq_some.mpr ⟨hfam, rfl⟩
  have hnum : ∀ i ≤ n, w.number "s" i = some (burstMember i) := by
    intro i hi
    obtain ⟨m, hm⟩ := h.inv.numbered _ hfam i hi
    obtain ⟨hmi, -, hseq⟩ := number_spec hm
    obtain ⟨j, -, rfl⟩ := (h.issued m).mp hmi
    obtain rfl : j = i := hseq
    exact hm
  -- "0" was pruned
  have hgone : ∀ m ∈ w.db.members, m.jti ≠ "0" := by
    intro m hm he
    obtain ⟨f, hf, hfs, -, hlt, hmn⟩ := (h.inv.member_iff m).mp hm
    obtain ⟨i, -, rfl⟩ := (h.issued m).mp (number_spec hmn).1
    obtain rfl : f = burstFamily n := by rw [h.families] at hf; exact List.mem_singleton.mp hf
    obtain rfl : i = 0 := toString_injective he
    simp only [burstFamily, burstMember] at hlt
    omega
  refine ⟨⟨0, show 0 < n by omega, burstMember 0, burstMember 1, hnum 0 (by omega), rfl, hnum 1 (by omega),
    by decide⟩, ?_⟩
  have hseq : memberSeq w.db "s" "0" = none := by
    by_contra hne
    obtain ⟨m, hm, hj, -⟩ := memberSeq_ne_none.mp hne
    exact hgone m hm hj
  have hjoin : memberFamily w.db "0" = none := by
    rw [memberFamily, rowAt_eq_none.mpr hgone, Option.bind_none]
  have hhead : ¬ (burstFamily n).headJti = "0" := by
    intro he
    have := toString_injective (show toString n = toString 0 from he)
    omega
  have hpruned : ¬ ((none : Option Nat) = none ∧ (burstFamily n).rotations < keepMembers) := fun hk =>
    absurd hk.2 (not_lt.mpr hn)
  have hlive : (burstFamily n).Live 0 := show (0 : Int) < 3600000000 by decide
  unfold sessionDetectReuseAndRevoke
  rw [hrow, hseq, hjoin]
  dsimp only
  rw [if_neg (not_not.mpr hlive), if_neg hhead, if_neg hpruned, if_neg (by simp)]
  rfl

end BetterDecision
