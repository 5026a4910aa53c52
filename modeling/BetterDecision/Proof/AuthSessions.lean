import BetterDecision.Model.AuthSessions

/-!
# Refresh sessions are single-use

The tables are pinned to the history of what was handed out (`FamilyInv`): a family's
members are exactly the last thousand jtis issued for it, its head is the last of
them, and no jti was ever issued twice. What a jti may do is then a question about
where it stands in that history.

A jti that leaves the history's end never comes back to it (`Spent`), and one whose
family went, or lapsed, has nothing left to stand on (`Dead`). Both survive every
step, so a rotation is won once and a revocation is final.

The one thing that does not hold of every run is that a pruned jti is an old one: a
family rotated a thousand times within thirty seconds prunes a jti still in its grace.
`Unhurried` asks that it does not happen.
-/

namespace BetterDecision

/-! ## History -/

/-- Whose jti, and which one. -/
def AuthSessionMember.place (m : AuthSessionMember) : String × Nat := (m.sid, m.seq)

/-- Number `s` of the jtis handed out under `sid`. The history is newest first, so a
`sid` issued again starts over. -/
def SessionWorld.number (w : SessionWorld) (sid : String) (s : Nat) : Option AuthSessionMember :=
  rowAt AuthSessionMember.place w.issued (sid, s)

/-- The jti was issued for the family. -/
def IssuedFor (w : SessionWorld) (f : AuthSessionFamily) (jti : String) : Prop :=
  ∃ s ≤ f.rotations, ∃ m, w.number f.sid s = some m ∧ m.jti = jti

/-- The jti was issued for the family and the one after it created less than 30 s ago. -/
def RotatedOutLately (w : SessionWorld) (f : AuthSessionFamily) (jti : String) (now : Int) : Prop :=
  ∃ s < f.rotations, ∃ m next, w.number f.sid s = some m ∧ m.jti = jti ∧
    w.number f.sid (s + 1) = some next ∧ dbNow now (-sessionGraceTtlSeconds) < next.createdAt

/-- A jti about to be handed out is a new one. -/
def FreshJti (w : SessionWorld) : SessionCall → Prop
  | .issue jti _ _ _ _ _ => ∀ m ∈ w.issued, m.jti ≠ jti
  | .rotate _ newJti _ _ _ => ∀ m ∈ w.issued, m.jti ≠ newJti
  | _ => True

/-- No rotation prunes a jti still in its grace, and a family rotated a thousand times
is only asked about jtis issued for it. -/
def Unhurried (w : SessionWorld) (now : Int) : SessionCall → Prop
  | .rotate _ _ sid _ _ => ∀ f, lockFamily w.db sid = some f → ∀ m ∈ w.db.members, m.sid = sid →
      m.seq + keepMembers ≤ f.rotations + 1 → ¬ Graced w.db now m f
  | .detectReuseAndRevoke jti sid => ∀ f, lockFamily w.db sid = some f → keepMembers ≤ f.rotations →
      IssuedFor w f jti
  | _ => True

def OrderlyCall (w : SessionWorld) (c : Int × SessionCall) : Prop := FreshJti w c.2 ∧ Unhurried w c.1 c.2

instance (w : SessionWorld) (f : AuthSessionFamily) (jti : String) : Decidable (IssuedFor w f jti) :=
  decidable_of_iff
    ((List.range (f.rotations + 1)).any (fun s => (w.number f.sid s).any (fun m => m.jti == jti)) = true) <| by
    simp [IssuedFor, Option.any_eq_true]

instance (w : SessionWorld) : ∀ call, Decidable (FreshJti w call)
  | .issue _ _ _ _ _ _ => inferInstanceAs (Decidable (∀ m ∈ w.issued, _))
  | .rotate _ _ _ _ _ => inferInstanceAs (Decidable (∀ m ∈ w.issued, _))
  | .purge _ _ | .validate _ | .grace _ | .revokeFamily _ | .revokeUser _ _ | .detectReuseAndRevoke _ _ =>
    inferInstanceAs (Decidable True)

instance (w : SessionWorld) (now : Int) : ∀ call, Decidable (Unhurried w now call)
  | .rotate _ _ sid _ _ => inferInstanceAs (Decidable (∀ f ∈ lockFamily w.db sid, ∀ m ∈ w.db.members, _))
  | .detectReuseAndRevoke jti sid =>
    inferInstanceAs (Decidable (∀ f ∈ lockFamily w.db sid, keepMembers ≤ f.rotations → IssuedFor w f jti))
  | .issue _ _ _ _ _ _ | .purge _ _ | .validate _ | .grace _ | .revokeFamily _ | .revokeUser _ _ =>
    inferInstanceAs (Decidable True)

instance (w : SessionWorld) (c : Int × SessionCall) : Decidable (OrderlyCall w c) :=
  inferInstanceAs (Decidable (_ ∧ _))

/-- The tables are what the history says they are. -/
structure FamilyInv (w : SessionWorld) : Prop where
  /-- One row a family. -/
  families : Keyed AuthSessionFamily.sid w.db.families
  /-- One row a member. -/
  members : Keyed AuthSessionMember.jti w.db.members
  /-- No jti is handed out twice. -/
  jtis : Keyed AuthSessionMember.jti w.issued
  /-- A family's members are the last ones issued for it. -/
  member_iff : ∀ m, m ∈ w.db.members ↔ ∃ f ∈ w.db.families, f.sid = m.sid ∧ m.seq ≤ f.rotations ∧
    f.rotations < m.seq + keepMembers ∧ w.number m.sid m.seq = some m
  /-- No number was left out. -/
  numbered : ∀ f ∈ w.db.families, ∀ s ≤ f.rotations, ∃ m, w.number f.sid s = some m
  /-- The head is the last one issued. -/
  head : ∀ f ∈ w.db.families, ∀ m, w.number f.sid f.rotations = some m → m.jti = f.headJti

/-- What was pruned was out of its grace. -/
def PrunedOld (w : SessionWorld) : Prop :=
  ∀ f ∈ w.db.families, ∀ s, s + keepMembers ≤ f.rotations →
    ∀ next, w.number f.sid (s + 1) = some next → next.createdAt ≤ dbNow w.clock (-sessionGraceTtlSeconds)

theorem familyInv_init (start : Int) : FamilyInv { clock := start } where
  families := .nil
  members := .nil
  jtis := .nil
  member_iff := by intro m; simp
  numbered := by intro f hf; simp at hf
  head := by intro f hf; simp at hf

theorem number_spec {w : SessionWorld} {sid : String} {s : Nat} {m : AuthSessionMember}
    (h : w.number sid s = some m) : m ∈ w.issued ∧ m.sid = sid ∧ m.seq = s := by
  have hplace : m.place = (sid, s) := key_of_rowAt h
  exact ⟨mem_of_rowAt h, congrArg Prod.fst hplace, congrArg Prod.snd hplace⟩

/-- The history after one more jti. -/
theorem number_cons {w w' : SessionWorld} {n : AuthSessionMember} (h : w'.issued = n :: w.issued)
    (sid : String) (s : Nat) :
    w'.number sid s = if n.sid = sid ∧ n.seq = s then some n else w.number sid s := by
  rw [SessionWorld.number, h, rowAt_cons]
  simp only [AuthSessionMember.place, Prod.mk.injEq]
  rfl

theorem number_congr {w w' : SessionWorld} (h : w'.issued = w.issued) (sid : String) (s : Nat) :
    w'.number sid s = w.number sid s := by
  rw [SessionWorld.number, SessionWorld.number, h]

/-! ## Reading the tables -/

section Reading

variable {w : SessionWorld} {now : Int} {f : AuthSessionFamily} {jti sid : String}

theorem memberSeq_ne_none {db : StateDb} :
    memberSeq db sid jti ≠ none ↔ ∃ m ∈ db.members, m.jti = jti ∧ m.sid = sid := by
  simp [memberSeq]

namespace FamilyInv

theorem lockFamily_eq_some (h : FamilyInv w) : lockFamily w.db sid = some f ↔ f ∈ w.db.families ∧ f.sid = sid :=
  h.families.rowAt_eq_some

theorem number_of_mem (h : FamilyInv w) {m : AuthSessionMember} (hm : m ∈ w.db.members) :
    w.number m.sid m.seq = some m := by
  obtain ⟨_, _, _, _, _, hn⟩ := (h.member_iff m).mp hm
  exact hn

theorem memberFamily_eq_some (h : FamilyInv w) {m : AuthSessionMember} :
    memberFamily w.db jti = some (m, f) ↔ m ∈ w.db.members ∧ m.jti = jti ∧ f ∈ w.db.families ∧ f.sid = m.sid := by
  simp only [memberFamily, Option.bind_eq_some_iff, Option.map_eq_some_iff, Prod.mk.injEq]
  constructor
  · rintro ⟨m', hm', f', hf', rfl, rfl⟩
    obtain ⟨h1, h2⟩ := h.members.rowAt_eq_some.mp hm'
    obtain ⟨h3, h4⟩ := h.lockFamily_eq_some.mp hf'
    exact ⟨h1, h2, h3, h4⟩
  · rintro ⟨h1, h2, h3, h4⟩
    exact ⟨m, h.members.rowAt_eq_some.mpr ⟨h1, h2⟩, f, h.lockFamily_eq_some.mpr ⟨h3, h4⟩, rfl, rfl⟩

/-- Two numbers that are the same jti are the same number. -/
theorem eq_of_number (h : FamilyInv w) {sid' : String} {s s' : Nat} {m m' : AuthSessionMember}
    (hm : w.number sid s = some m) (hm' : w.number sid' s' = some m') (hj : m.jti = m'.jti) :
    sid = sid' ∧ s = s' := by
  obtain ⟨h1, h2, h3⟩ := number_spec hm
  obtain ⟨h1', h2', h3'⟩ := number_spec hm'
  obtain rfl := h.jtis.eq_of_key h1 h1' hj
  exact ⟨h2.symm.trans h2', h3.symm.trans h3'⟩

/-- A number below the last is not the head. -/
theorem ne_head (h : FamilyInv w) (hf : f ∈ w.db.families) {s : Nat} {m : AuthSessionMember}
    (hs : s < f.rotations) (hm : w.number f.sid s = some m) : m.jti ≠ f.headJti := by
  intro he
  obtain ⟨top, htop⟩ := h.numbered f hf f.rotations (le_refl _)
  have := (h.eq_of_number hm htop (he.trans (h.head f hf top htop).symm)).2
  omega

/-- A member in its grace is one rotated out lately. -/
theorem rotatedOutLately_of_graced (h : FamilyInv w) {m : AuthSessionMember} (hm : m ∈ w.db.members)
    (hf : f ∈ w.db.families) (hs : f.sid = m.sid) (hg : Graced w.db now m f) :
    RotatedOutLately w f m.jti now := by
  obtain ⟨hne, next, hnext, hsid, hseq, hlate⟩ := hg
  obtain ⟨f', hf', hf's, hle, _, hn⟩ := (h.member_iff m).mp hm
  obtain rfl := h.families.eq_of_key hf' hf (hf's.trans hs.symm)
  have hlt : m.seq < f'.rotations := by
    refine lt_of_le_of_ne hle fun he => hne ?_
    exact h.head f' hf' m (by rw [hs, ← he]; exact hn)
  have hnext := h.number_of_mem hnext
  rw [hsid, hseq] at hnext
  exact ⟨m.seq, hlt, m, next, by rw [hs]; exact hn, rfl, by rw [hs]; exact hnext, hlate⟩

/-- **One rotated out lately is a member in its grace.** -/
theorem graced_of_rotatedOutLately (h : FamilyInv w) (hold : PrunedOld w) (hnow : w.clock ≤ now)
    (hf : f ∈ w.db.families) (hr : RotatedOutLately w f jti now) :
    ∃ m ∈ w.db.members, m.jti = jti ∧ f.sid = m.sid ∧ Graced w.db now m f := by
  obtain ⟨s, hs, m, next, hm, rfl, hnext, hlate⟩ := hr
  obtain ⟨-, hsid, hseq⟩ := number_spec hm
  obtain ⟨-, hsid', hseq'⟩ := number_spec hnext
  have hkept : f.rotations < s + keepMembers := by
    by_contra hge
    have := hold f hf s (by omega) next hnext
    unfold dbNow at this hlate
    omega
  refine ⟨m, (h.member_iff m).mpr ⟨f, hf, hsid.symm, by omega, by omega, ?_⟩, rfl, hsid.symm, ?_⟩
  · rw [hsid, hseq]; exact hm
  · refine ⟨h.ne_head hf hs hm, next, (h.member_iff next).mpr ⟨f, hf, hsid'.symm, by omega, by omega, ?_⟩,
      by rw [hsid, hsid'], by omega, hlate⟩
    rw [hsid', hseq']; exact hnext

/-- A jti validates exactly while it is the head of a live family. -/
theorem sessionValidate_eq_some (h : FamilyInv w) {r : SessionRow} :
    sessionValidate w.db now jti = some r ↔
      ∃ f ∈ w.db.families, f.Live now ∧ f.headJti = jti ∧ r = ⟨f.userId, f.sid⟩ := by
  simp only [sessionValidate, Option.map_eq_some_iff, Option.filter_eq_some_iff, decide_eq_true_eq]
  constructor
  · rintro ⟨⟨m, f⟩, ⟨hmf, hhead, hlive⟩, rfl⟩
    obtain ⟨_, rfl, hf, _⟩ := h.memberFamily_eq_some.mp hmf
    exact ⟨f, hf, hlive, hhead, rfl⟩
  · rintro ⟨f, hf, hlive, rfl, rfl⟩
    obtain ⟨m, hm⟩ := h.numbered f hf f.rotations (le_refl _)
    obtain ⟨-, hsid, hseq⟩ := number_spec hm
    have hjti := h.head f hf m hm
    have hmem : m ∈ w.db.members :=
      (h.member_iff m).mpr ⟨f, hf, hsid.symm, by omega, by unfold keepMembers; omega, by rw [hsid, hseq]; exact hm⟩
    exact ⟨(m, f), ⟨h.memberFamily_eq_some.mpr ⟨hmem, hjti, hf, hsid.symm⟩, hjti.symm, hlive⟩, rfl⟩

/-- **Grace goes to exactly the jtis rotated out lately of a live family.** -/
theorem sessionGrace_eq_some (h : FamilyInv w) (hold : PrunedOld w) (hnow : w.clock ≤ now)
    {r : SessionRow × String} :
    sessionGrace w.db now jti = some r ↔ ∃ f ∈ w.db.families, f.Live now ∧
      RotatedOutLately w f jti now ∧ r = (⟨f.userId, f.sid⟩, f.headJti) := by
  simp only [sessionGrace, Option.map_eq_some_iff, Option.filter_eq_some_iff, decide_eq_true_eq]
  constructor
  · rintro ⟨⟨m, f⟩, ⟨hmf, hlive, hg⟩, rfl⟩
    obtain ⟨hm, rfl, hf, hs⟩ := h.memberFamily_eq_some.mp hmf
    exact ⟨f, hf, hlive, h.rotatedOutLately_of_graced hm hf hs hg, rfl⟩
  · rintro ⟨f, hf, hlive, hr, rfl⟩
    obtain ⟨m, hm, rfl, hs, hg⟩ := h.graced_of_rotatedOutLately hold hnow hf hr
    exact ⟨(m, f), ⟨h.memberFamily_eq_some.mpr ⟨hm, rfl, hf, hs⟩, hlive, hg⟩, rfl⟩

/-- **Reuse is a jti issued for the live family, rotated out, and not lately.** -/
theorem detect_reused_iff (h : FamilyInv w) (hold : PrunedOld w) (hnow : w.clock ≤ now)
    (hasked : Unhurried w now (.detectReuseAndRevoke jti sid)) :
    (∃ n, (sessionDetectReuseAndRevoke w.db now jti sid).2 = .reused n) ↔
      ∃ f, lockFamily w.db sid = some f ∧ f.Live now ∧ IssuedFor w f jti ∧ jti ≠ f.headJti ∧
        ¬ RotatedOutLately w f jti now := by
  unfold sessionDetectReuseAndRevoke
  rcases hf : lockFamily w.db sid with _ | f
  · simp
  · obtain ⟨hmem, rfl⟩ := h.lockFamily_eq_some.mp hf
    dsimp only
    simp only [Option.some.injEq, exists_eq_left']
    split
    · simp_all
    · rename_i hlive
      rw [not_not] at hlive
      split
      · simp_all
      · rename_i hhead
        split
        · rename_i hout
          -- a family with nothing pruned holds every jti issued for it
          refine ⟨fun ⟨_, hn⟩ => (nomatch hn), fun ⟨_, ⟨s, hs, m, hm, hj⟩, _, _⟩ => ?_⟩
          obtain ⟨-, hsid, hseq⟩ := number_spec hm
          refine absurd hout.1 (memberSeq_ne_none.mpr ⟨m, (h.member_iff m).mpr
            ⟨f, hmem, hsid.symm, by omega, by omega, by rw [hsid, hseq]; exact hm⟩, hj, hsid⟩)
        · rename_i hin
          split
          · rename_i hgr
            refine ⟨fun ⟨_, hn⟩ => (nomatch hn), fun ⟨_, ⟨s, hs, m, hm, hj⟩, _, hnot⟩ => absurd ?_ hnot⟩
            rw [Option.any_eq_true] at hgr
            obtain ⟨⟨m', f'⟩, hmf, hg⟩ := hgr
            obtain ⟨hm', rfl, hf', hs'⟩ := h.memberFamily_eq_some.mp hmf
            have hsid := (h.eq_of_number hm (h.number_of_mem hm') hj).1
            obtain rfl := h.families.eq_of_key hmem hf' (hsid.trans hs'.symm)
            exact h.rotatedOutLately_of_graced hm' hf' hs' (of_decide_eq_true hg)
          · rename_i hngr
            refine ⟨fun _ => ⟨hlive, ?_, fun he => hhead he.symm, fun hr => hngr ?_⟩, fun _ => ⟨_, rfl⟩⟩
            · rcases hseq : memberSeq w.db f.sid jti with _ | s
              · exact hasked f hf (Nat.le_of_not_lt fun hlt => hin ⟨hseq, hlt⟩)
              · obtain ⟨m, hm, hj, hs⟩ := memberSeq_ne_none.mp (by rw [hseq]; simp)
                obtain ⟨f', hf', hs', hle, -, hn⟩ := (h.member_iff m).mp hm
                obtain rfl := h.families.eq_of_key hf' hmem (hs'.trans hs)
                exact ⟨m.seq, hle, m, by rw [hs']; exact hn, hj⟩
            · obtain ⟨m, hm, rfl, hs, hg⟩ := h.graced_of_rotatedOutLately hold hnow hmem hr
              rw [Option.any_eq_true]
              exact ⟨(m, f), h.memberFamily_eq_some.mpr ⟨hm, rfl, hmem, hs⟩, decide_eq_true hg⟩

end FamilyInv

end Reading

/-! ## What a step can do -/

theorem mem_dropFamilies {db : StateDb} {sids : List String} {f : AuthSessionFamily} :
    f ∈ (dropFamilies db sids).families ↔ f ∈ db.families ∧ f.sid ∉ sids := by
  simp [dropFamilies]

theorem mem_dropMembers {db : StateDb} {sids : List String} {m : AuthSessionMember} :
    m ∈ (dropFamilies db sids).members ↔ m ∈ db.members ∧ m.sid ∉ sids := by
  simp [dropFamilies]

theorem dropFamilies_nil (db : StateDb) : dropFamilies db [] = db := by
  simp [dropFamilies]

theorem insertMember_eq_ok {db db' : StateDb} {m : AuthSessionMember} (h : insertMember db m = .ok db') :
    (∀ n ∈ db.members, n.jti ≠ m.jti) ∧ db' = { db with members := db.members ++ [m] } := by
  unfold insertMember at h
  split at h
  · cases h
  · rename_i hjti
    split at h
    · cases h
    · refine ⟨fun n hn he => hjti ?_, (Except.ok.inj h).symm⟩
      rw [List.any_eq_true]
      exact ⟨n, hn, beq_iff_eq.mpr he⟩

/-- A sign-in never evicts its own family. -/
theorem sid_notMem_familiesToEvict {db : StateDb} {sid : String} {userId : Nat} {skip : List String}
    {rank : String → Nat} : sid ∉ familiesToEvict db sid userId skip rank := by
  intro h
  obtain ⟨f, hf, rfl⟩ := List.mem_map.mp h
  have hmem := List.mem_of_mem_drop (List.mem_of_mem_take hf)
  rw [List.mem_insertionSort, List.mem_filter] at hmem
  simpa using hmem.2

/-- A rotation that went through: the family was live and its head was presented. -/
theorem sessionRotate_ok {db db' : StateDb} {now idleTtl : Int} {oldJti newJti sid : String} {userId : Nat}
    (h : sessionRotate db now oldJti newJti sid userId idleTtl = .ok (db', .ok)) :
    ∃ fam, lockFamily db sid = some fam ∧ fam.Live now ∧ fam.headJti = oldJti ∧
      (∃ m ∈ db.members, m.jti = oldJti ∧ m.sid = sid) ∧ (∀ n ∈ db.members, n.jti ≠ newJti) ∧
      db' = rotated { db with members := db.members ++
        [{ jti := newJti, sid, seq := fam.rotations + 1, createdAt := now }] } now newJti fam idleTtl := by
  unfold sessionRotate at h
  split at h
  · cases h
  · rename_i fam hfam
    split at h
    · cases h
    · rename_i hlive
      split at h
      · cases h
      · rename_i hmem
        split at h
        · cases h
        · rename_i hhead
          split at h
          · cases h
          · cases h
          · rename_i hins
            obtain ⟨hnew, rfl⟩ := insertMember_eq_ok hins
            have hdb := congrArg Prod.fst (Except.ok.inj h)
            exact ⟨fam, hfam, by_contra fun hl => hlive (.inl hl), not_not.mp hhead, memberSeq_ne_none.mp hmem,
              hnew, hdb.symm⟩

/-- A rotation that answers anything else writes nothing. -/
theorem sessionRotate_refused {db db' : StateDb} {now idleTtl : Int} {oldJti newJti sid : String}
    {userId : Nat} {result : RotateResult}
    (h : sessionRotate db now oldJti newJti sid userId idleTtl = .ok (db', result)) (hr : result ≠ .ok) :
    db = db' := by
  unfold sessionRotate at h
  repeat' split at h
  all_goals
    first
    | cases h; rfl
    | exact absurd (congrArg Prod.snd (Except.ok.inj h)).symm hr
    | cases h

/-- **What a step can do**: drop families, issue a family, or rotate one. -/
inductive SessionMove (w : SessionWorld) (now : Int) : SessionCall → SessionWorld → Prop
  | drop {call : SessionCall} (sids : List String) :
      SessionMove w now call { db := dropFamilies w.db sids, clock := now, issued := w.issued }
  | issue {jti sid : String} {userId : Nat} {ttl : Int} {skip : List String} {rank : String → Nat}
      (sids : List String) (own : sid ∉ sids) (free : lockFamily w.db sid = none)
      (new : ∀ m ∈ w.db.members, m.jti ≠ jti) :
      SessionMove w now (.issue jti sid userId ttl skip rank)
        { db := dropFamilies
            { families := w.db.families ++
                [{ sid, userId, headJti := jti, rotations := 0, expiresAt := dbNow now ttl }]
              members := w.db.members ++ [{ jti, sid, seq := 0, createdAt := now }] } sids
          clock := now, issued := { jti, sid, seq := 0, createdAt := now } :: w.issued }
  | rotate {oldJti newJti sid : String} {userId : Nat} {idleTtl : Int} {fam : AuthSessionFamily}
      (row : lockFamily w.db sid = some fam) (live : fam.Live now) (head : fam.headJti = oldJti)
      (new : ∀ m ∈ w.db.members, m.jti ≠ newJti) :
      SessionMove w now (.rotate oldJti newJti sid userId idleTtl)
        { db := rotated { w.db with members := w.db.members ++
            [{ jti := newJti, sid, seq := fam.rotations + 1, createdAt := now }] } now newJti fam idleTtl
          clock := now
          issued := { jti := newJti, sid, seq := fam.rotations + 1, createdAt := now } :: w.issued }

/-- A call that only drops families, or nothing. -/
theorem sessionMove_of_drop {w w' : SessionWorld} {now : Int} {call : SessionCall} (sids : List String)
    (hw : w' = { db := dropFamilies w.db sids, clock := now, issued := w.issued }) :
    SessionMove w now call w' := hw ▸ .drop sids

theorem sessionStep_move {w w' : SessionWorld} {now : Int} {call : SessionCall}
    (h : sessionStep w (now, call) = .ok w') : w.clock ≤ now ∧ SessionMove w now call w' := by
  obtain ⟨_, hclock, h⟩ := bind_eq_ok.mp h
  obtain ⟨db, hdb, h⟩ := bind_eq_ok.mp h
  obtain rfl := Except.ok.inj h
  refine ⟨not_lt.mp (refuse_eq_ok.mp hclock), ?_⟩
  have same : ∀ {c : SessionCall}, SessionMove w now c { db := w.db, clock := now, issued := w.issued } :=
    sessionMove_of_drop [] (by rw [dropFamilies_nil])
  cases call with
  | issue jti sid userId ttl skip rank =>
    obtain ⟨_, hfree, hdb⟩ := bind_eq_ok.mp hdb
    dsimp only at hdb
    split at hdb
    · cases hdb
    · rename_i hins
      obtain ⟨hnew, rfl⟩ := insertMember_eq_ok hins
      obtain rfl := Except.ok.inj hdb
      exact .issue _ sid_notMem_familiesToEvict (by simpa using refuse_eq_ok.mp hfree) hnew
  | purge skip rank =>
    obtain rfl := Except.ok.inj hdb
    exact .drop _
  | validate jti =>
    obtain rfl := Except.ok.inj hdb
    exact same
  | grace jti =>
    obtain rfl := Except.ok.inj hdb
    exact same
  | rotate oldJti newJti sid userId idleTtl =>
    rcases hrot : sessionRotate w.db now oldJti newJti sid userId idleTtl with e | ⟨db', result⟩
    · rw [sessionTables, hrot] at hdb
      cases hdb
    · rw [sessionTables, hrot] at hdb
      obtain rfl := Except.ok.inj hdb
      dsimp only [issuedBy]
      rw [hrot]
      cases result with
      | ok =>
        obtain ⟨fam, hfam, hlive, hhead, -, hnew, rfl⟩ := sessionRotate_ok hrot
        rw [hfam]
        exact .rotate hfam hlive hhead hnew
      | sessionRevoked => exact sessionRotate_refused hrot (by simp) ▸ same
      | alreadyRotated => exact sessionRotate_refused hrot (by simp) ▸ same
      | jtiCollision => exact sessionRotate_refused hrot (by simp) ▸ same
  | revokeFamily sid =>
    obtain rfl := Except.ok.inj hdb
    dsimp only [issuedBy, sessionRevokeFamily]
    split
    · exact same
    · split
      · exact same
      · exact .drop [sid]
  | revokeUser userId keepSids =>
    obtain rfl := Except.ok.inj hdb
    exact .drop _
  | detectReuseAndRevoke jti sid =>
    obtain rfl := Except.ok.inj hdb
    dsimp only [issuedBy, sessionDetectReuseAndRevoke]
    split
    · exact same
    · split
      · exact same
      · split
        · exact same
        · split
          · exact same
          · split
            · exact same
            · exact .drop [sid]

/-! ## The invariant -/

theorem FamilyInv.drop {w : SessionWorld} (h : FamilyInv w) (sids : List String) (now : Int) :
    FamilyInv { db := dropFamilies w.db sids, clock := now, issued := w.issued } where
  families := h.families.filter _
  members := h.members.filter _
  jtis := h.jtis
  member_iff := by
    intro m
    rw [mem_dropMembers, h.member_iff]
    constructor
    · rintro ⟨⟨f, hf, hs, hle, hlt, hn⟩, hout⟩
      exact ⟨f, mem_dropFamilies.mpr ⟨hf, hs ▸ hout⟩, hs, hle, hlt, hn⟩
    · rintro ⟨f, hf, hs, hle, hlt, hn⟩
      obtain ⟨hf, hout⟩ := mem_dropFamilies.mp hf
      exact ⟨⟨f, hf, hs, hle, hlt, hn⟩, hs ▸ hout⟩
  numbered := fun f hf => h.numbered f (mem_dropFamilies.mp hf).1
  head := fun f hf => h.head f (mem_dropFamilies.mp hf).1

theorem FamilyInv.issue {w : SessionWorld} (h : FamilyInv w) {jti sid : String} (userId : Nat) (ttl now : Int)
    (free : lockFamily w.db sid = none) (new : ∀ m ∈ w.db.members, m.jti ≠ jti)
    (fresh : ∀ m ∈ w.issued, m.jti ≠ jti) :
    FamilyInv
      { db :=
          { families := w.db.families ++
              [{ sid, userId, headJti := jti, rotations := 0, expiresAt := dbNow now ttl }]
            members := w.db.members ++ [{ jti, sid, seq := 0, createdAt := now }] }
        clock := now, issued := { jti, sid, seq := 0, createdAt := now } :: w.issued } := by
  have hfree : ∀ f ∈ w.db.families, f.sid ≠ sid := rowAt_eq_none.mp free
  have hnum : ∀ sid' s, sid' ≠ sid → SessionWorld.number
      { db := w.db, clock := now, issued := { jti, sid, seq := 0, createdAt := now } :: w.issued } sid' s =
        w.number sid' s := by
    intro sid' s hne
    rw [number_cons rfl, if_neg fun hk => hne hk.1.symm]
  refine ⟨h.families.concat hfree, h.members.concat new, h.jtis.cons fresh, ?_, ?_, ?_⟩
  · intro m
    rw [List.mem_append, List.mem_singleton]
    constructor
    · rintro (hm | rfl)
      · obtain ⟨f, hf, hs, hle, hlt, hn⟩ := (h.member_iff m).mp hm
        exact ⟨f, List.mem_append_left _ hf, hs, hle, hlt, (hnum _ _ (hs ▸ hfree f hf)).trans hn⟩
      · refine ⟨_, List.mem_append_right _ (List.mem_singleton_self _), rfl, le_refl _, ?_, ?_⟩
        · exact Nat.lt_add_of_pos_right (by decide)
        · rw [number_cons rfl, if_pos ⟨rfl, rfl⟩]
    · rintro ⟨f, hf, hs, hle, hlt, hn⟩
      rcases List.mem_append.mp hf with hf | hf
      · exact .inl ((h.member_iff m).mpr ⟨f, hf, hs, hle, hlt, (hnum _ _ (hs ▸ hfree f hf)).symm.trans hn⟩)
      · obtain rfl := List.mem_singleton.mp hf
        refine .inr ?_
        rw [number_cons rfl, if_pos ⟨hs, (Nat.le_zero.mp hle).symm⟩] at hn
        exact (Option.some.inj hn).symm
  · intro f hf s hs
    rcases List.mem_append.mp hf with hf | hf
    · obtain ⟨m, hm⟩ := h.numbered f hf s hs
      exact ⟨m, (hnum _ _ (hfree f hf)).trans hm⟩
    · obtain rfl := List.mem_singleton.mp hf
      exact ⟨_, by rw [number_cons rfl, if_pos ⟨rfl, (Nat.le_zero.mp hs).symm⟩]⟩
  · intro f hf m hm
    rcases List.mem_append.mp hf with hf | hf
    · exact h.head f hf m ((hnum _ _ (hfree f hf)).symm.trans hm)
    · obtain rfl := List.mem_singleton.mp hf
      rw [number_cons rfl, if_pos ⟨rfl, rfl⟩] at hm
      rw [← Option.some.inj hm]

/-- The family's row after a rotation of `fam`. -/
def rotatedFamily (fam : AuthSessionFamily) (newJti : String) (now ttl : Int) (f : AuthSessionFamily) :
    AuthSessionFamily :=
  if f.sid = fam.sid then { f with headJti := newJti, rotations := fam.rotations + 1, expiresAt := dbNow now ttl }
  else f

theorem rotatedFamily_sid (fam : AuthSessionFamily) (newJti : String) (now ttl : Int) (f : AuthSessionFamily) :
    (rotatedFamily fam newJti now ttl f).sid = f.sid := by
  unfold rotatedFamily
  split <;> rfl

theorem rotatedFamily_of_ne {fam f : AuthSessionFamily} (newJti : String) (now ttl : Int) (h : f.sid ≠ fam.sid) :
    rotatedFamily fam newJti now ttl f = f := if_neg h

theorem mem_rotatedFamilies {db : StateDb} {now ttl : Int} {newJti : String} {fam g : AuthSessionFamily} :
    g ∈ (rotated db now newJti fam ttl).families ↔ ∃ f ∈ db.families, rotatedFamily fam newJti now ttl f = g :=
  List.mem_map

theorem mem_rotatedMembers {db : StateDb} {now ttl : Int} {newJti : String} {fam : AuthSessionFamily}
    {m : AuthSessionMember} :
    m ∈ (rotated db now newJti fam ttl).members ↔
      m ∈ db.members ∧ ¬ (m.sid = fam.sid ∧ m.seq + keepMembers ≤ fam.rotations + 1) := by
  simp only [rotated, List.mem_filter, Bool.not_eq_true', decide_eq_false_iff_not]

theorem FamilyInv.rotate {w : SessionWorld} (h : FamilyInv w) {newJti sid : String} {fam : AuthSessionFamily}
    (now ttl : Int) (row : lockFamily w.db sid = some fam) (new : ∀ m ∈ w.db.members, m.jti ≠ newJti)
    (fresh : ∀ m ∈ w.issued, m.jti ≠ newJti) :
    FamilyInv
      { db := rotated { w.db with members := w.db.members ++
          [{ jti := newJti, sid, seq := fam.rotations + 1, createdAt := now }] } now newJti fam ttl
        clock := now
        issued := { jti := newJti, sid, seq := fam.rotations + 1, createdAt := now } :: w.issued } := by
  obtain ⟨hfam, rfl⟩ := h.lockFamily_eq_some.mp row
  have hrow : ∀ f ∈ w.db.families, f.sid = fam.sid → f = fam := fun f hf hs => h.families.eq_of_key hf hfam hs
  have hself : rotatedFamily fam newJti now ttl fam =
      { fam with headJti := newJti, rotations := fam.rotations + 1, expiresAt := dbNow now ttl } := if_pos rfl
  refine ⟨h.families.map fun f _ => rotatedFamily_sid .., (h.members.concat new).filter _, h.jtis.cons fresh, ?_, ?_, ?_⟩
  · intro m
    rw [mem_rotatedMembers, List.mem_append, List.mem_singleton, number_cons rfl]
    by_cases hs : m.sid = fam.sid
    · -- the family's own members: one more at the top, one fewer at the bottom
      have hmem : m ∈ w.db.members ↔
          m.seq ≤ fam.rotations ∧ fam.rotations < m.seq + keepMembers ∧ w.number m.sid m.seq = some m := by
        rw [h.member_iff]
        constructor
        · rintro ⟨f, hf, hfs, hle, hlt, hn⟩
          obtain rfl := hrow f hf (hfs.trans hs)
          exact ⟨hle, hlt, hn⟩
        · exact fun hm => ⟨fam, hfam, hs.symm, hm⟩
      have hfamily : (∃ f ∈ (rotated { w.db with members := w.db.members ++
          [{ jti := newJti, sid := fam.sid, seq := fam.rotations + 1, createdAt := now }] } now newJti fam ttl).families,
            f.sid = m.sid ∧ m.seq ≤ f.rotations ∧ f.rotations < m.seq + keepMembers ∧
            (if fam.sid = m.sid ∧ fam.rotations + 1 = m.seq then
              some { jti := newJti, sid := fam.sid, seq := fam.rotations + 1, createdAt := now }
            else w.number m.sid m.seq) = some m) ↔
          m.seq ≤ fam.rotations + 1 ∧ fam.rotations + 1 < m.seq + keepMembers ∧
            (if fam.sid = m.sid ∧ fam.rotations + 1 = m.seq then
              some { jti := newJti, sid := fam.sid, seq := fam.rotations + 1, createdAt := now }
            else w.number m.sid m.seq) = some m := by
        constructor
        · rintro ⟨g, hg, hgs, hrest⟩
          obtain ⟨f, hf, rfl⟩ := mem_rotatedFamilies.mp hg
          rw [rotatedFamily_sid] at hgs
          obtain rfl := hrow f hf (hgs.trans hs)
          rwa [hself] at hrest
        · intro hrest
          exact ⟨_, mem_rotatedFamilies.mpr ⟨fam, hfam, rfl⟩, by rw [rotatedFamily_sid, hs], by rwa [hself]⟩
      rw [hfamily, hmem]
      by_cases htop : fam.rotations + 1 = m.seq
      · rw [if_pos ⟨hs.symm, htop⟩, Option.some.injEq, eq_comm (b := m)]
        constructor
        · rintro ⟨hm | rfl, hkeep⟩
          · omega
          · exact ⟨le_refl _, by dsimp only; unfold keepMembers; omega, rfl⟩
        · rintro ⟨-, hkeep, rfl⟩
          exact ⟨.inr rfl, fun hold => by omega⟩
      · rw [if_neg fun hk => htop hk.2]
        constructor
        · rintro ⟨⟨hle, hlt, hn⟩ | rfl, hkeep⟩
          · exact ⟨by omega, by by_contra hc; exact hkeep ⟨hs, by omega⟩, hn⟩
          · exact absurd rfl htop
        · rintro ⟨hle, hkeep, hn⟩
          exact ⟨.inl ⟨by omega, by omega, hn⟩, fun hold => by omega⟩
    · -- another family's: nothing moved
      rw [if_neg fun hk => hs hk.1.symm]
      constructor
      · rintro ⟨hm | rfl, -⟩
        · obtain ⟨f, hf, hfs, hrest⟩ := (h.member_iff m).mp hm
          have hne : f.sid ≠ fam.sid := hfs.trans_ne hs
          exact ⟨f, mem_rotatedFamilies.mpr ⟨f, hf, rotatedFamily_of_ne _ _ _ hne⟩, hfs, hrest⟩
        · exact absurd rfl hs
      · rintro ⟨g, hg, hgs, hrest⟩
        obtain ⟨f, hf, rfl⟩ := mem_rotatedFamilies.mp hg
        have hne : f.sid ≠ fam.sid := by
          rw [rotatedFamily_sid] at hgs
          exact hgs.trans_ne hs
        rw [rotatedFamily_of_ne _ _ _ hne] at hgs hrest
        exact ⟨.inl ((h.member_iff m).mpr ⟨f, hf, hgs, hrest⟩), fun hk => hs hk.1⟩
  · intro g hg s hle
    obtain ⟨f, hf, rfl⟩ := mem_rotatedFamilies.mp hg
    rw [rotatedFamily_sid, number_cons rfl]
    by_cases hs : f.sid = fam.sid
    · obtain rfl := hrow f hf hs
      rw [hself] at hle
      split
      · exact ⟨_, rfl⟩
      · rename_i htop
        exact h.numbered f hf s (Nat.le_of_lt_succ (lt_of_le_of_ne hle fun he => htop ⟨rfl, he.symm⟩))
    · rw [rotatedFamily_of_ne _ _ _ hs] at hle
      rw [if_neg fun hk => hs hk.1.symm]
      exact h.numbered f hf s hle
  · intro g hg m hm
    obtain ⟨f, hf, rfl⟩ := mem_rotatedFamilies.mp hg
    rw [rotatedFamily_sid, number_cons rfl] at hm
    by_cases hs : f.sid = fam.sid
    · obtain rfl := hrow f hf hs
      rw [hself] at hm ⊢
      rw [if_pos ⟨rfl, rfl⟩] at hm
      rw [← Option.some.inj hm]
    · rw [rotatedFamily_of_ne _ _ _ hs] at hm ⊢
      rw [if_neg fun hk => hs hk.1.symm] at hm
      exact h.head f hf m hm

theorem familyInv_move {w w' : SessionWorld} {now : Int} {call : SessionCall} (h : FamilyInv w)
    (hfresh : FreshJti w call) (hm : SessionMove w now call w') : FamilyInv w' := by
  cases hm with
  | drop sids => exact h.drop sids now
  | issue sids _ free new => exact (h.issue _ _ now free new hfresh).drop sids now
  | rotate row _ _ new => exact h.rotate now _ row new hfresh

/-- **A rotation that hurries nobody prunes only what is out of its grace.** -/
theorem prunedOld_move {w w' : SessionWorld} {now : Int} {call : SessionCall} (h : FamilyInv w)
    (hold : PrunedOld w) (hclock : w.clock ≤ now) (hslow : Unhurried w now call)
    (hm : SessionMove w now call w') : PrunedOld w' := by
  have later : ∀ {f : AuthSessionFamily}, f ∈ w.db.families → ∀ {s}, s + keepMembers ≤ f.rotations →
      ∀ {next}, w.number f.sid (s + 1) = some next →
        next.createdAt ≤ dbNow now (-sessionGraceTtlSeconds) := by
    intro f hf s hs next hn
    have := hold f hf s hs next hn
    unfold dbNow at this ⊢
    omega
  cases hm with
  | drop sids => exact fun f hf s hs next hn => later (mem_dropFamilies.mp hf).1 hs hn
  | issue sids _ free new =>
    intro f hf s hs next hn
    obtain ⟨hf, -⟩ := mem_dropFamilies.mp hf
    rw [number_cons rfl] at hn
    rcases List.mem_append.mp hf with hf | hf
    · rw [if_neg fun hk => rowAt_eq_none.mp free f hf hk.1.symm] at hn
      exact later hf hs hn
    · obtain rfl := List.mem_singleton.mp hf
      exact absurd hs (by simp [keepMembers])
  | @rotate oldJti newJti sid userId idleTtl fam row live head new =>
    obtain ⟨hfam, rfl⟩ := h.lockFamily_eq_some.mp row
    intro g hg s hs next hn
    obtain ⟨f, hf, rfl⟩ := mem_rotatedFamilies.mp hg
    rw [rotatedFamily_sid, number_cons rfl] at hn
    by_cases hsid : f.sid = fam.sid
    · obtain rfl := h.families.eq_of_key hf hfam hsid
      simp only [rotatedFamily, if_pos] at hs
      have hkeep : 2 ≤ keepMembers := by decide
      rw [if_neg fun hk => by have := hk.2; dsimp only at this; omega] at hn
      rcases Nat.lt_or_ge f.rotations (s + keepMembers) with htop | hbelow
      · -- the one pruned now: it is a member still, and not in its grace
        obtain ⟨m, hm⟩ := h.numbered f hf s (by omega)
        obtain ⟨-, hms, hmq⟩ := number_spec hm
        obtain ⟨-, hns, hnq⟩ := number_spec hn
        have hmem : m ∈ w.db.members :=
          (h.member_iff m).mpr ⟨f, hf, hms.symm, by omega, by omega, by rw [hms, hmq]; exact hm⟩
        have hnext : next ∈ w.db.members :=
          (h.member_iff next).mpr ⟨f, hf, hns.symm, by omega, by omega, by rw [hns, hnq]; exact hn⟩
        by_contra hlate
        exact hslow f row m hmem hms (by omega)
          ⟨h.ne_head hf (by omega) hm, next, hnext, hns.trans hms.symm, by omega, not_le.mp hlate⟩
      · exact later hf hbelow hn
    · rw [rotatedFamily_of_ne _ _ _ hsid] at hs
      rw [if_neg fun hk => hsid hk.1.symm] at hn
      exact later hf hs hn

theorem sessionStep_inv {w w' : SessionWorld} {c : Int × SessionCall} (h : FamilyInv w ∧ PrunedOld w)
    (hg : OrderlyCall w c) (hstep : sessionStep w c = .ok w') : FamilyInv w' ∧ PrunedOld w' := by
  obtain ⟨hclock, hm⟩ := sessionStep_move hstep
  exact ⟨familyInv_move h.1 hg.1 hm, prunedOld_move h.1 h.2 hclock hg.2 hm⟩

theorem sessionRun_inv (start : Int) (calls : List (Int × SessionCall))
    (hg : Guarded sessionStep OrderlyCall { clock := start } calls) :
    FamilyInv (run sessionStep { clock := start } calls) ∧
      PrunedOld (run sessionStep { clock := start } calls) :=
  run_invariant_of_guarded (fun _ _ _ h hg hstep => sessionStep_inv h hg hstep) calls hg
    ⟨familyInv_init start, fun f hf => by simp at hf⟩

/-! ## What does not come back -/

/-- The jti was handed out, and is no family's head any more. -/
def Spent (w : SessionWorld) (jti : String) : Prop :=
  (∃ m ∈ w.issued, m.jti = jti) ∧ ∀ f ∈ w.db.families, f.headJti ≠ jti

/-- The jti was handed out, and is a member of no live family any more. -/
def Dead (w : SessionWorld) (jti : String) : Prop :=
  (∃ m ∈ w.issued, m.jti = jti) ∧ ∀ m ∈ w.db.members, m.jti = jti →
    ∀ f ∈ w.db.families, f.sid = m.sid → ¬ f.Live w.clock

theorem spent_move {w w' : SessionWorld} {now : Int} {call : SessionCall} {jti : String}
    (h : Spent w jti) (hfresh : FreshJti w call) (hm : SessionMove w now call w') : Spent w' jti := by
  obtain ⟨⟨m, hmi, rfl⟩, hhead⟩ := h
  cases hm with
  | drop sids => exact ⟨⟨m, hmi, rfl⟩, fun f hf => hhead f (mem_dropFamilies.mp hf).1⟩
  | issue sids _ _ _ =>
    refine ⟨⟨m, List.mem_cons_of_mem _ hmi, rfl⟩, fun f hf => ?_⟩
    rcases List.mem_append.mp (mem_dropFamilies.mp hf).1 with hf | hf
    · exact hhead f hf
    · obtain rfl := List.mem_singleton.mp hf
      exact (hfresh m hmi).symm
  | rotate row _ _ _ =>
    refine ⟨⟨m, List.mem_cons_of_mem _ hmi, rfl⟩, fun g hg => ?_⟩
    obtain ⟨f, hf, rfl⟩ := mem_rotatedFamilies.mp hg
    unfold rotatedFamily
    split
    · exact (hfresh m hmi).symm
    · exact hhead f hf

theorem dead_move {w w' : SessionWorld} {now : Int} {call : SessionCall} {jti : String} (h : FamilyInv w)
    (hd : Dead w jti) (hclock : w.clock ≤ now) (hfresh : FreshJti w call) (hm : SessionMove w now call w') :
    Dead w' jti := by
  obtain ⟨⟨m, hmi, rfl⟩, hdead⟩ := hd
  have still : ∀ n ∈ w.db.members, n.jti = m.jti → ∀ f ∈ w.db.families, f.sid = n.sid → ¬ f.Live now :=
    fun n hn hj f hf hs hlive => hdead n hn hj f hf hs (lt_of_le_of_lt hclock hlive)
  cases hm with
  | drop sids =>
    exact ⟨⟨m, hmi, rfl⟩, fun n hn hj f hf =>
      still n (mem_dropMembers.mp hn).1 hj f (mem_dropFamilies.mp hf).1⟩
  | issue sids _ free _ =>
    refine ⟨⟨m, List.mem_cons_of_mem _ hmi, rfl⟩, fun n hn hj f hf hs => ?_⟩
    rcases List.mem_append.mp (mem_dropMembers.mp hn).1 with hn | hn
    · rcases List.mem_append.mp (mem_dropFamilies.mp hf).1 with hf | hf
      · exact still n hn hj f hf hs
      · -- a member of the new family would have had a family before
        obtain rfl := List.mem_singleton.mp hf
        obtain ⟨g, hg, hgs, -⟩ := (h.member_iff n).mp hn
        exact absurd (hgs.trans hs.symm) (rowAt_eq_none.mp free g hg)
    · obtain rfl := List.mem_singleton.mp hn
      exact absurd hj.symm (hfresh m hmi)
  | @rotate oldJti newJti sid userId idleTtl fam row live head _ =>
    obtain ⟨hfam, rfl⟩ := h.lockFamily_eq_some.mp row
    refine ⟨⟨m, List.mem_cons_of_mem _ hmi, rfl⟩, fun n hkept hj g hg hs => ?_⟩
    obtain ⟨f, hf, rfl⟩ := mem_rotatedFamilies.mp hg
    rw [rotatedFamily_sid] at hs
    rcases List.mem_append.mp (mem_rotatedMembers.mp hkept).1 with hn | hn
    · by_cases hsid : f.sid = fam.sid
      · -- only a live family rotates
        obtain rfl := h.families.eq_of_key hf hfam hsid
        exact absurd live (still n hn hj f hf hs)
      · rw [rotatedFamily_of_ne _ _ _ hsid]
        exact still n hn hj f hf hs
    · obtain rfl := List.mem_singleton.mp hn
      exact absurd hj.symm (hfresh m hmi)

/-- What every step keeps of one jti, a run keeps. -/
theorem sessionRun_keeps {I : SessionWorld → Prop}
    (hkeep : ∀ w now call w', FamilyInv w → I w → w.clock ≤ now → FreshJti w call →
      SessionMove w now call w' → I w')
    {w : SessionWorld} (h : FamilyInv w ∧ PrunedOld w) (hI : I w) (calls : List (Int × SessionCall))
    (hg : Guarded sessionStep OrderlyCall w calls) : I (run sessionStep w calls) := by
  refine (run_invariant_of_guarded (I := fun w => (FamilyInv w ∧ PrunedOld w) ∧ I w) ?_ calls hg ⟨h, hI⟩).2
  rintro w c w' ⟨h, hI⟩ hg hstep
  obtain ⟨hclock, hm⟩ := sessionStep_move hstep
  exact ⟨sessionStep_inv h hg hstep, hkeep w c.1 c.2 w' h.1 hI hclock hg.1 hm⟩

end BetterDecision
