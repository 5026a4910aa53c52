import BetterDecision.Model.AssistantChat
import Mathlib.Data.List.Chain
import Mathlib.Data.List.Nodup

/-!
# Conversations do not mix, and what is sent

A writer's generation is the store's only as long as no sign-out, new chat or owner switch came
in between: each of them moves it on. So a write reaches the conversation its writer began in, or
one that began with nobody signed in; and no entry is shown to anybody but the owner it was
written for.

What is sent is the longest end of the conversation that fits and starts with the user.
-/

namespace BetterDecision

/-! ## Ids -/

/-- The entries have an id each, and none that is still to be drawn. -/
structure HeldIds (seq : Nat) (entries : List ChatEntry) : Prop where
  nodup : (entries.map ChatEntry.id).Nodup
  drawn : ∀ e ∈ entries, e.id ≤ seq

theorem heldIds_nil (seq : Nat) : HeldIds seq [] :=
  ⟨List.nodup_nil, fun _ he => absurd he List.not_mem_nil⟩

theorem HeldIds.sublist {seq : Nat} {entries part : List ChatEntry} (h : HeldIds seq entries) (hsub : part.Sublist entries) :
    HeldIds seq part :=
  ⟨h.nodup.sublist (hsub.map _), fun e he => h.drawn e (hsub.subset he)⟩

theorem HeldIds.later {seq later : Nat} {entries : List ChatEntry} (h : HeldIds seq entries) (hle : seq ≤ later) :
    HeldIds later entries :=
  ⟨h.nodup, fun e he => Nat.le_trans (h.drawn e he) hle⟩

/-- Edits that keep the ids keep them held. -/
theorem HeldIds.of_ids {seq : Nat} {entries entries' : List ChatEntry} (h : HeldIds seq entries)
    (hids : entries'.map ChatEntry.id = entries.map ChatEntry.id) : HeldIds seq entries' := by
  refine ⟨hids ▸ h.nodup, ?_⟩
  intro e he
  have hmem : e.id ∈ entries.map ChatEntry.id := hids ▸ List.mem_map_of_mem he
  obtain ⟨old, hold, hid⟩ := List.mem_map.mp hmem
  rw [← hid]
  exact h.drawn old hold

theorem HeldIds.map {seq : Nat} {entries : List ChatEntry} (h : HeldIds seq entries) {f : ChatEntry → ChatEntry}
    (hf : ∀ e, (f e).id = e.id) : HeldIds seq (entries.map f) := by
  refine h.of_ids ?_
  rw [List.map_map]
  exact List.map_congr_left fun e _ => hf e

/-- The next id is nobody's. -/
theorem HeldIds.append {seq : Nat} {entries : List ChatEntry} (h : HeldIds seq entries) {e : ChatEntry} (he : e.id = seq + 1) :
    HeldIds (seq + 1) (entries ++ [e]) := by
  constructor
  · rw [List.map_append, List.nodup_append]
    refine ⟨h.nodup, List.nodup_singleton _, ?_⟩
    intro i hi j hj
    obtain ⟨old, hold, rfl⟩ := List.mem_map.mp hi
    obtain rfl := List.mem_singleton.mp hj
    have hle := h.drawn old hold
    omega
  · intro x hx
    rcases List.mem_append.mp hx with hx | hx
    · have hle := h.drawn x hx
      omega
    · rw [List.mem_singleton.mp hx, he]

theorem HeldIds.cards {seq : Nat} {entries : List ChatEntry} (h : HeldIds seq entries) (rows : List AgentActionRow) :
    HeldIds (seq + rows.length) (entries ++ cardsOf seq rows) := by
  induction rows generalizing seq entries with
  | nil =>
    unfold cardsOf
    rw [List.append_nil]
    exact h
  | cons r rows ih =>
    have hnext := ih (h.append (e := .preview (seq + 1) r.tool r.action none) rfl)
    have hlen : seq + 1 + rows.length = seq + (r :: rows).length := by
      rw [List.length_cons]
      omega
    rw [List.append_assoc, List.singleton_append, hlen] at hnext
    unfold cardsOf
    exact hnext

/-! ## The writes keep the ids -/

theorem answered_id (ok : Bool) (rows : Option Int) (code : Option String) (e : ChatEntry) :
    (e.answered ok rows code).id = e.id := by
  cases e <;> rfl

theorem stopped_id (e : ChatEntry) : e.stopped.id = e.id := by
  unfold ChatEntry.stopped
  split <;> rfl

theorem failedAs_id (id : Nat) (text : JsString) (e : ChatEntry) : (e.failedAs id text).id = e.id := by
  unfold ChatEntry.failedAs
  split
  · exact Eq.symm ‹_›
  · rfl

theorem swapped_id (id : Nat) (action : StagedAction) (e : ChatEntry) : (e.swapped id action).id = e.id := by
  cases e <;> rfl

theorem settled_id (id : Nat) (outcome : CardOutcome) (e : ChatEntry) : (e.settled id outcome).id = e.id := by
  cases e <;> rfl

theorem relabelled_id (seqAtSend : Nat) (rows : List AgentActionRow) (e : ChatEntry) :
    (e.relabelled seqAtSend rows).id = e.id := by
  unfold ChatEntry.relabelled
  split <;> rfl

theorem replaceLast_ids {p : ChatEntry → Bool} {f : ChatEntry → ChatEntry} (hf : ∀ e, (f e).id = e.id)
    {entries entries' : List ChatEntry} (h : replaceLast p f entries = some entries') :
    entries'.map ChatEntry.id = entries.map ChatEntry.id := by
  induction entries generalizing entries' with
  | nil => cases h
  | cons e entries ih =>
    unfold replaceLast at h
    split at h
    · rename_i hrest
      obtain rfl := Option.some.inj h
      rw [List.map_cons, List.map_cons, ih hrest]
    · split at h
      · obtain rfl := Option.some.inj h
        rw [List.map_cons, List.map_cons, hf]
      · cases h

/-- What a write draws and what it leaves. -/
theorem update_heldIds (w : ChatWrite) {prev : List ChatEntry} {seq : Nat} (h : HeldIds seq prev) :
    HeldIds (w.update prev (if w.drawsFirst then seq + 1 else seq)).2
      ((w.update prev (if w.drawsFirst then seq + 1 else seq)).1.getD prev) := by
  cases w with
  | send text => exact (h.sublist List.filter_sublist).append rfl
  | message text => exact h.append rfl
  | toolCall name => exact h.append rfl
  | toolResult name ok rows code =>
    show HeldIds seq ((replaceLast (ChatEntry.isOpenTool name) (ChatEntry.answered ok rows code) prev).getD prev)
    cases hlast : replaceLast (ChatEntry.isOpenTool name) (ChatEntry.answered ok rows code) prev with
    | none => exact h
    | some entries' => exact h.of_ids (replaceLast_ids (answered_id ok rows code) hlast)
  | preview tool action =>
    have hrest : HeldIds seq (prev.filter (fun e => !e.isOpenTool tool)) := h.sublist List.filter_sublist
    show HeldIds (ChatWrite.update (.preview tool action) prev seq).2
      ((ChatWrite.update (.preview tool action) prev seq).1.getD prev)
    simp only [ChatWrite.update]
    split
    · exact hrest
    · exact hrest.append rfl
  | turnEnded => exact h.map stopped_id
  | notSent id text => exact h.map (failedAs_id id text)
  | failed userEntry code =>
    cases userEntry with
    | none => exact h.append rfl
    | some p => exact (h.map (failedAs_id p.1 p.2)).append rfl
  | swap id action => exact h.map (swapped_id id action)
  | decide id outcome => exact h.map (settled_id id outcome)

theorem mergedActions_heldIds (seqAtSend : Nat) (rows : List AgentActionRow) {prev : List ChatEntry} {seq : Nat}
    (h : HeldIds seq prev) :
    HeldIds (mergedActions seqAtSend rows prev seq).2 ((mergedActions seqAtSend rows prev seq).1.getD prev) := by
  simp only [mergedActions]
  split
  · exact (h.map (relabelled_id seqAtSend rows)).cards _
  · exact h

/-! ## What a write does to the tab -/

/-- A write that reaches the entries, spelled out. -/
structure TookUpdate (fn : EntryUpdate) (tab tab' : AssistantTab) : Prop where
  owned : tab.store.owner ≠ none
  owner : tab'.store.owner = tab.store.owner
  gen : tab'.gen = tab.gen
  seq : tab'.seq = (fn tab.store.entries tab.seq).2
  entries : tab'.store.entries = (fn tab.store.entries tab.seq).1.getD tab.store.entries
  mirror : tab'.mirror = tab.mirror ∨ ∃ s, tab'.mirror = some s ∧ tab.store.owner = some s.owner ∧ s.seq = tab'.seq ∧
    s.entries.Sublist tab'.store.entries

theorem updateEntries_stale {access : StorageAccess} {now : Int} {g : Nat} {fn : EntryUpdate} {userMessage : Bool}
    {tab : AssistantTab} (h : ¬ tab.Takes g) : updateEntries access now g fn userMessage tab = tab := if_neg h

theorem persist_spec (access : StorageAccess) (tab : AssistantTab) :
    (persist access tab).store = tab.store ∧ (persist access tab).gen = tab.gen ∧ (persist access tab).seq = tab.seq ∧
      ((persist access tab).mirror = tab.mirror ∨ ∃ s, (persist access tab).mirror = some s ∧
        tab.store.owner = some s.owner ∧ s.seq = tab.seq ∧ s.entries.Sublist tab.store.entries) := by
  unfold persist
  split
  · exact ⟨rfl, rfl, rfl, .inl rfl⟩
  · split
    · exact ⟨rfl, rfl, rfl, .inr ⟨_, rfl, ‹_›, rfl, List.drop_sublist _ _⟩⟩
    · exact ⟨rfl, rfl, rfl, .inl rfl⟩

theorem updateEntries_took {access : StorageAccess} {now : Int} {g : Nat} {fn : EntryUpdate} {userMessage : Bool}
    {tab : AssistantTab} (h : tab.Takes g) : TookUpdate fn tab (updateEntries access now g fn userMessage tab) := by
  unfold updateEntries
  rw [if_pos h]
  dsimp only
  split
  · rename_i hnone
    exact ⟨h.1, rfl, rfl, rfl, by rw [hnone.1, Option.getD_none], .inl rfl⟩
  · generalize hdraft : ({ tab with
      seq := (fn tab.store.entries tab.seq).2
      store := { tab.store with
        entries := (fn tab.store.entries tab.seq).1.getD tab.store.entries
        lastMessageAt := if userMessage = true ∨ tab.store.lastMessageAt = none then some now
          else tab.store.lastMessageAt } } : AssistantTab) = draft
    obtain ⟨hstore, hgen, hseq, hmirror⟩ := persist_spec access draft
    subst hdraft
    refine ⟨h.1, ?_, hgen, hseq, ?_, ?_⟩
    · rw [hstore]
    · rw [hstore]
    · rw [hstore, hseq]
      exact hmirror

/-! ## The run -/

/-- The entry was put there for its owner, by a writer that began as theirs or as nobody's. -/
def Recorded (log : List ChatRecord) (owner : Option String) (e : ChatEntry) : Prop :=
  ∃ r ∈ log, r.entry = e ∧ r.owner = owner ∧ (r.startedWith = none ∨ r.startedWith = owner)

/-- What every call of the store keeps. -/
structure Unmixed (w : AssistantWorld) : Prop where
  ids : HeldIds w.tab.seq w.tab.store.entries
  mirrorIds : ∀ s ∈ w.tab.mirror, HeldIds s.seq s.entries
  recorded : ∀ e ∈ w.tab.store.entries, Recorded w.log w.tab.store.owner e
  mirrorRecorded : ∀ s ∈ w.tab.mirror, ∀ e ∈ s.entries, Recorded w.log (some s.owner) e
  begun : ∀ i c, w.writers.get? i = some c → c.gen ≤ w.tab.gen
  current : ∀ i c, w.writers.get? i = some c → c.gen = w.tab.gen →
    c.ended = w.ended ∧ (c.owner = none ∨ c.owner = w.tab.store.owner)

theorem Recorded.append {log more : List ChatRecord} {owner : Option String} {e : ChatEntry} (h : Recorded log owner e) :
    Recorded (log ++ more) owner e := by
  obtain ⟨r, hr, hrest⟩ := h
  exact ⟨r, List.mem_append_left _ hr, hrest⟩

theorem removeKey_spec (access : StorageAccess) (tab : AssistantTab) :
    (removeKey access tab).store = tab.store ∧ (removeKey access tab).gen = tab.gen ∧ (removeKey access tab).seq = tab.seq ∧
      ∀ s ∈ (removeKey access tab).mirror, s ∈ tab.mirror := by
  unfold removeKey
  split
  · exact ⟨rfl, rfl, rfl, fun s hs => absurd hs (Option.not_mem_none s)⟩
  · exact ⟨rfl, rfl, rfl, fun _ hs => hs⟩

/-- A tab emptied for an owner, or for nobody. -/
theorem removeKey_emptied (access : StorageAccess) (owner : Option String) (gen : Nat) (tab : AssistantTab) :
    (removeKey access { tab with gen, store := { owner } }).store.owner = owner ∧
      (removeKey access { tab with gen, store := { owner } }).gen = gen ∧
      (∀ s ∈ (removeKey access { tab with gen, store := { owner } }).mirror, s ∈ tab.mirror) ∧
      (removeKey access { tab with gen, store := { owner } }).store.entries = [] := by
  obtain ⟨hstore, hgen, -, hmirror⟩ := removeKey_spec access { tab with gen, store := { owner } }
  refine ⟨?_, hgen, hmirror, ?_⟩
  · rw [hstore]
  · rw [hstore]

/-- An owner is adopted with an empty store, or with what the mirror holds for them. -/
theorem adoptOwner_spec (access : StorageAccess) (now : Int) {owner : String} {tab : AssistantTab}
    (hother : tab.store.owner ≠ some owner) :
    (adoptOwner access now owner tab).store.owner = some owner ∧
      (adoptOwner access now owner tab).gen = (if tab.store.owner.isSome then tab.gen + 1 else tab.gen) ∧
      (∀ s ∈ (adoptOwner access now owner tab).mirror, s ∈ tab.mirror) ∧
      ((adoptOwner access now owner tab).store.entries = [] ∨ ∃ s ∈ tab.mirror, s.owner = owner ∧
        s.seq ≤ (adoptOwner access now owner tab).seq ∧
        (adoptOwner access now owner tab).store.entries = s.entries.filter validEntry) := by
  obtain ⟨howner, hgen, hmirror, hnil⟩ := removeKey_emptied access (some owner)
    (if tab.store.owner.isSome then tab.gen + 1 else tab.gen) tab
  unfold adoptOwner
  rw [if_neg hother]
  dsimp only
  split
  · exact ⟨howner, hgen, hmirror, .inl hnil⟩
  · rename_i s hread
    split
    · exact ⟨howner, hgen, hmirror, .inl hnil⟩
    · -- what was stored is this owner's, and recent
      rename_i hvalid
      refine ⟨rfl, rfl, fun _ hs => hs, .inr ?_⟩
      unfold readStored at hread
      split at hread
      · obtain ⟨stored, hstored, rfl⟩ := Option.map_eq_some_iff.mp hread
        refine ⟨stored, hstored, ?_, Nat.le_max_right _ _, rfl⟩
        exact not_not.mp fun hne => hvalid (.inl hne)
      · cases hread

theorem unmixed_start : Unmixed {} where
  ids := heldIds_nil 0
  mirrorIds := fun s hs => absurd hs (Option.not_mem_none s)
  recorded := fun _ he => absurd he List.not_mem_nil
  mirrorRecorded := fun s hs => absurd hs (Option.not_mem_none s)
  begun := fun i c hc => by rw [Table.get?_empty] at hc; cases hc
  current := fun i c hc => by rw [Table.get?_empty] at hc; cases hc

/-- A write that takes effect, and one that does not. -/
theorem wrote_unmixed {w : AssistantWorld} {i : Nat} {c : ChatWriter} (h : Unmixed w) (hc : w.writers.get? i = some c)
    {tab' : AssistantTab} (fn : EntryUpdate) {seq : Nat} (hseq : w.tab.seq ≤ seq)
    (hids : HeldIds (fn w.tab.store.entries seq).2 ((fn w.tab.store.entries seq).1.getD w.tab.store.entries))
    (hupdate : (¬ w.tab.Takes c.gen ∧ tab' = { w.tab with seq }) ∨
      (w.tab.Takes c.gen ∧ TookUpdate fn { w.tab with seq } tab')) : Unmixed (w.wrote c tab') := by
  rcases hupdate with ⟨-, rfl⟩ | ⟨htakes, htook⟩
  · exact ⟨h.ids.later hseq, h.mirrorIds, fun e he => (h.recorded e he).append,
      fun s hs e he => (h.mirrorRecorded s hs e he).append, h.begun, h.current⟩
  · have howner : tab'.store.owner = w.tab.store.owner := htook.owner
    have hbegan := (h.current i c hc htakes.2).2
    have hrecorded : ∀ e ∈ tab'.store.entries, Recorded (w.wrote c tab').log tab'.store.owner e := by
      intro e he
      -- an entry that was there has its record; a new one is recorded now, by a writer that is current
      by_cases hold : e ∈ w.tab.store.entries
      · rw [howner]
        exact (h.recorded e hold).append
      · refine ⟨_, List.mem_append_right _ (List.mem_map.mpr ⟨e, ?_, rfl⟩), rfl, rfl, ?_⟩
        · rw [List.mem_filter]
          refine ⟨he, ?_⟩
          rw [Bool.not_eq_true', Bool.eq_false_iff]
          exact fun hthere => hold (List.contains_iff_mem.mp hthere)
        · rw [howner]
          exact hbegan
    have hnew : HeldIds tab'.seq tab'.store.entries := by
      rw [htook.seq, htook.entries]
      exact hids
    have hmirror : ∀ s ∈ tab'.mirror, s ∈ w.tab.mirror ∨ (w.tab.store.owner = some s.owner ∧ s.seq = tab'.seq ∧
        s.entries.Sublist tab'.store.entries) := by
      intro s hs
      rcases htook.mirror with hsame | ⟨s', hs', hrest⟩
      · exact .inl (hsame ▸ hs)
      · rw [hs'] at hs
        obtain rfl := Option.some.inj hs
        exact .inr hrest
    refine ⟨hnew, ?_, hrecorded, ?_, ?_, ?_⟩
    · intro s hs
      -- the mirror is as before, or holds the end of the entries just written
      rcases hmirror s hs with hs | ⟨-, hseq', hsub⟩
      · exact h.mirrorIds s hs
      · rw [hseq']
        exact hnew.sublist hsub
    · intro s hs e he
      rcases hmirror s hs with hs | ⟨hsowner, -, hsub⟩
      · exact (h.mirrorRecorded s hs e he).append
      · rw [← hsowner, ← howner]
        exact hrecorded e (hsub.subset he)
    · intro j d hd
      show d.gen ≤ tab'.gen
      rw [htook.gen]
      exact h.begun j d hd
    · intro j d hd hgen
      have hgen : d.gen = w.tab.gen := hgen.trans htook.gen
      show d.ended = w.ended ∧ (d.owner = none ∨ d.owner = tab'.store.owner)
      rw [howner]
      exact h.current j d hd hgen

theorem write_took {access : StorageAccess} {now : Int} {g : Nat} {fn : EntryUpdate} {userMessage : Bool}
    {tab : AssistantTab} (seq : Nat) :
    (¬ tab.Takes g ∧ updateEntries access now g fn userMessage { tab with seq } = { tab with seq }) ∨
      (tab.Takes g ∧ TookUpdate fn { tab with seq } (updateEntries access now g fn userMessage { tab with seq })) := by
  by_cases h : tab.Takes g
  · exact .inr ⟨h, updateEntries_took h⟩
  · exact .inl ⟨h, updateEntries_stale h⟩

/-- A conversation that is over: the store is empty, and no writer is of its generation. -/
theorem emptied_unmixed {w : AssistantWorld} (h : Unmixed w) (access : StorageAccess) (owner : Option String) :
    Unmixed
      { w with
        tab := { (removeKey access { w.tab with store := { owner } }) with gen := w.tab.gen + 1 }
        ended := w.ended + 1 } := by
  obtain ⟨-, -, hmirror, hnil⟩ := removeKey_emptied access owner w.tab.gen w.tab
  refine ⟨?_, fun s hs => h.mirrorIds s (hmirror s hs), ?_, fun s hs => h.mirrorRecorded s (hmirror s hs), ?_, ?_⟩
  · dsimp only
    rw [hnil]
    exact heldIds_nil _
  · dsimp only
    rw [hnil]
    exact fun e he => absurd he List.not_mem_nil
  · intro i c hc
    exact Nat.le_succ_of_le (h.begun i c hc)
  · intro i c hc hgenc
    -- every writer began under an earlier generation
    have hle := h.begun i c hc
    have hgenc : c.gen = w.tab.gen + 1 := hgenc
    omega

/-- **Every call of the store keeps the conversations apart.** -/
theorem unmixed_step {w w' : AssistantWorld} {event : AssistantEvent} (h : Unmixed w)
    (hstep : assistantStep w event = .ok w') : Unmixed w' := by
  cases event with
  | adopt access now owner =>
    obtain rfl := Except.ok.inj hstep
    by_cases hsame : w.tab.store.owner = some owner
    · have htab : adoptOwner access now owner w.tab = w.tab := if_pos hsame
      have hended : ¬ (w.tab.store.owner.isSome ∧ w.tab.store.owner ≠ some owner) := fun hother => hother.2 hsame
      rw [htab, if_neg hended]
      exact h
    · obtain ⟨howner, hgen, hmirror, hentries⟩ := adoptOwner_spec access now hsame
      refine ⟨?_, fun s hs => h.mirrorIds s (hmirror s hs), ?_, fun s hs => h.mirrorRecorded s (hmirror s hs), ?_, ?_⟩
      · dsimp only
        rcases hentries with hnil | ⟨s, hs, -, hseq, hkept⟩
        · rw [hnil]
          exact heldIds_nil _
        · rw [hkept]
          exact ((h.mirrorIds s hs).later hseq).sublist List.filter_sublist
      · dsimp only
        rw [howner]
        rcases hentries with hnil | ⟨s, hs, rfl, -, hkept⟩
        · rw [hnil]
          exact fun e he => absurd he List.not_mem_nil
        · rw [hkept]
          exact fun e he => h.mirrorRecorded s hs e (List.mem_of_mem_filter he)
      · intro i c hc
        have hle := h.begun i c hc
        dsimp only
        rw [hgen]
        split <;> omega
      · intro i c hc hgenc
        have hle := h.begun i c hc
        dsimp only at hgenc ⊢
        rw [hgen] at hgenc
        by_cases hsome : w.tab.store.owner.isSome
        · -- the switch moved the generation on
          rw [if_pos hsome] at hgenc
          omega
        · rw [if_neg hsome] at hgenc
          rw [if_neg fun hother => hsome hother.1]
          obtain ⟨hended, hbegan⟩ := h.current i c hc hgenc
          rw [Option.not_isSome_iff_eq_none.mp hsome, or_self] at hbegan
          exact ⟨hended, .inl hbegan⟩
  | clear access =>
    obtain rfl := Except.ok.inj hstep
    exact emptied_unmixed h access none
  | reset access =>
    obtain rfl := Except.ok.inj hstep
    exact emptied_unmixed h access w.tab.store.owner
  | start =>
    obtain rfl := Except.ok.inj hstep
    refine ⟨h.ids, h.mirrorIds, h.recorded, h.mirrorRecorded, ?_, ?_⟩
    · intro i c hc
      rw [Table.get?_insert] at hc
      split at hc
      · obtain rfl := Option.some.inj hc
        exact Nat.le_refl _
      · exact h.begun i c hc
    · intro i c hc hgenc
      rw [Table.get?_insert] at hc
      split at hc
      · obtain rfl := Option.some.inj hc
        exact ⟨rfl, .inr rfl⟩
      · exact h.current i c hc hgenc
  | write access now writer write =>
    obtain ⟨c, hc, hstep⟩ := bind_eq_ok.mp hstep
    obtain rfl := Except.ok.inj hstep
    -- some writes draw an id before the generation is looked at
    refine wrote_unmixed h (found_eq_ok.mp hc) write.update ?_ (update_heldIds write h.ids) ?_
    · split <;> omega
    · unfold writeChat
      have htab : (if write.drawsFirst then { w.tab with seq := w.tab.seq + 1 } else w.tab) =
          { w.tab with seq := if write.drawsFirst then w.tab.seq + 1 else w.tab.seq } := by
        split <;> rfl
      rw [htab]
      exact write_took _
  | merge access now writer seqAtSend rows =>
    obtain ⟨c, hc, hstep⟩ := bind_eq_ok.mp hstep
    obtain rfl := Except.ok.inj hstep
    exact wrote_unmixed h (found_eq_ok.mp hc) (mergedActions seqAtSend rows) (Nat.le_refl _) (mergedActions_heldIds seqAtSend rows h.ids)
      (write_took w.tab.seq)
  | reload =>
    obtain rfl := Except.ok.inj hstep
    -- the module's variables start over; the mirror is what survives
    refine ⟨heldIds_nil 0, h.mirrorIds, fun e he => absurd he List.not_mem_nil, h.mirrorRecorded, ?_, ?_⟩
    · intro i c hc
      rw [Table.get?_empty] at hc
      cases hc
    · intro i c hc
      rw [Table.get?_empty] at hc
      cases hc

/-- The writer of a call. -/
def AssistantEvent.writer : AssistantEvent → Option Nat
  | .write _ _ writer _ | .merge _ _ writer _ _ => some writer
  | _ => none

/-- A write that changed the store, or what is stored, was of the store's generation. -/
theorem takes_of_changed {w w' : AssistantWorld} {event : AssistantEvent} {i : Nat} {c : ChatWriter}
    (hwriter : event.writer = some i) (hc : w.writers.get? i = some c) (hstep : assistantStep w event = .ok w')
    (hchanged : w'.tab.store ≠ w.tab.store ∨ w'.tab.mirror ≠ w.tab.mirror) : w.tab.Takes c.gen := by
  by_contra hstale
  have hkeeps : ∀ {access : StorageAccess} {now : Int} {fn : EntryUpdate} {userMessage : Bool} (seq : Nat),
      updateEntries access now c.gen fn userMessage { w.tab with seq } = { w.tab with seq } :=
    fun _ => updateEntries_stale hstale
  -- an id may be drawn; the store and the mirror are what they were
  have hstays : ∀ (tab' : AssistantTab) (seq : Nat), tab' = { w.tab with seq } → w' = w.wrote c tab' → False := by
    rintro _ seq rfl rfl
    exact hchanged.elim (fun hne => hne rfl) fun hne => hne rfl
  cases event with
  | write access now writer write =>
    obtain rfl := Option.some.inj hwriter
    obtain ⟨c', hc', hstep⟩ := bind_eq_ok.mp hstep
    obtain rfl : c = c' := Option.some.inj (hc.symm.trans (found_eq_ok.mp hc'))
    have hsame : ∃ seq, writeChat access now c.gen write w.tab = { w.tab with seq } := by
      unfold writeChat
      split
      · exact ⟨_, hkeeps _⟩
      · exact ⟨w.tab.seq, hkeeps w.tab.seq⟩
    obtain ⟨seq, hseq⟩ := hsame
    exact hstays _ seq hseq (Except.ok.inj hstep).symm
  | merge access now writer seqAtSend rows =>
    obtain rfl := Option.some.inj hwriter
    obtain ⟨c', hc', hstep⟩ := bind_eq_ok.mp hstep
    obtain rfl : c = c' := Option.some.inj (hc.symm.trans (found_eq_ok.mp hc'))
    have hsame : mergeServerActions access now c.gen seqAtSend rows w.tab = w.tab := updateEntries_stale hstale
    exact hstays _ w.tab.seq hsame (Except.ok.inj hstep).symm
  | adopt access now owner => cases hwriter
  | clear access => cases hwriter
  | reset access => cases hwriter
  | start => cases hwriter
  | reload => cases hwriter

/-- The tab after a run of calls. -/
def chatAfter (events : List AssistantEvent) : AssistantWorld := run assistantStep {} events

/-- **Conversations never mix**, in any order of calls, reloads and failing accesses: an entry is
shown to its owner alone; no id stands for two entries; and a write is dropped as soon as the
conversation it began in is over. -/
theorem conversations_never_mix (events : List AssistantEvent) :
    (∀ owner, ∀ e ∈ (getSnapshot (chatAfter events).tab owner).entries, Recorded (chatAfter events).log owner e) ∧
    ((chatAfter events).tab.store.entries.map ChatEntry.id).Nodup ∧
    ∀ event i c w', event.writer = some i → (chatAfter events).writers.get? i = some c →
      assistantStep (chatAfter events) event = .ok w' →
      w'.tab.store ≠ (chatAfter events).tab.store ∨ w'.tab.mirror ≠ (chatAfter events).tab.mirror →
      c.ended = (chatAfter events).ended ∧ (c.owner = none ∨ c.owner = (chatAfter events).tab.store.owner) := by
  have h : Unmixed (chatAfter events) :=
    run_invariant (fun w event w' hw hstep => unmixed_step hw hstep) events unmixed_start
  refine ⟨?_, h.ids.nodup, ?_⟩
  · intro owner e he
    unfold getSnapshot at he
    split at he
    · rename_i hshown
      rw [← hshown.2]
      exact h.recorded e he
    · exact absurd he List.not_mem_nil
  · intro event i c w' hwriter hc hstep hchanged
    exact h.current i c hc (takes_of_changed hwriter hc hstep hchanged).2

/-- A turn that has begun, of the first owner of the tab. -/
def firstTurn : List AssistantEvent :=
  [.adopt {} 0 "1:1", .start, .write {} 1 1 (.send (units ['H', 'i']))]

/-- The answer arrives. -/
theorem conversations_never_mix_answer :
    ∃ c w', (chatAfter firstTurn).writers.get? 1 = some c ∧
      assistantStep (chatAfter firstTurn) (.write {} 2 1 (.message (units ['H', 'o']))) = .ok w' ∧
      c.ended = (chatAfter firstTurn).ended ∧ (c.owner = none ∨ c.owner = some "1:1") := by
  refine ⟨_, _, rfl, rfl, ?_⟩
  exact (conversations_never_mix firstTurn).2.2 (.write {} 2 1 (.message (units ['H', 'o']))) 1 _ _ rfl rfl rfl
    (.inl (by decide))

/-! ## What is sent -/

/-- Messages that can be sent as they are. -/
structure FitsTurn (msgs : List OutgoingMessage) : Prop where
  count : msgs.length ≤ maxMessages
  bytes : totalBytes msgs ≤ maxBytes
  first : ∀ m ∈ msgs.head?, m.role = .user

/-- The roles take turns, and something is said each time. -/
structure Spoken (msgs : List OutgoingMessage) : Prop where
  turns : msgs.IsChain (fun m n => m.role ≠ n.role)
  said : ∀ m ∈ msgs, isBlankText m.content = false

theorem pushMessage_concat (msgs : List OutgoingMessage) (last m : OutgoingMessage) :
    pushMessage (msgs ++ [last]) m =
      if last.role = m.role then
        msgs ++ [{ last with content := last.content ++ units ['\n', '\n'] ++ m.content }]
      else msgs ++ [last] ++ [m] := by
  unfold pushMessage
  rw [List.getLast?_concat, List.dropLast_concat]

theorem isBlankText_append {a b : JsString} : isBlankText (a ++ b) = (isBlankText a && isBlankText b) := List.all_append

/-- The last message, which ends with what was said last. -/
theorem pushMessage_last (msgs : List OutgoingMessage) (m : OutgoingMessage) :
    ∃ last, (pushMessage msgs m).getLast? = some last ∧ last.role = m.role ∧ m.content <:+ last.content ∧
      ((∀ l ∈ msgs.getLast?, l.role ≠ m.role) → last.content = m.content) := by
  rcases List.eq_nil_or_concat msgs with rfl | ⟨init, l, rfl⟩
  · exact ⟨m, rfl, rfl, List.suffix_rfl, fun _ => rfl⟩
  · rw [List.concat_eq_append, pushMessage_concat, List.getLast?_concat]
    split
    · rename_i hrole
      refine ⟨_, List.getLast?_concat, hrole, List.suffix_append _ _, ?_⟩
      intro hother
      exact absurd hrole (hother l rfl)
    · exact ⟨m, List.getLast?_concat, rfl, List.suffix_rfl, fun _ => rfl⟩

theorem Spoken.push {msgs : List OutgoingMessage} (h : Spoken msgs) {m : OutgoingMessage}
    (hm : isBlankText m.content = false) : Spoken (pushMessage msgs m) := by
  rcases List.eq_nil_or_concat msgs with rfl | ⟨init, last, rfl⟩
  · refine ⟨List.isChain_singleton m, ?_⟩
    intro x hx
    rw [List.mem_singleton.mp hx]
    exact hm
  · rw [List.concat_eq_append] at h ⊢
    rw [pushMessage_concat]
    obtain ⟨hinit, -, hjoin⟩ := List.isChain_append.mp h.turns
    split
    · constructor
      · rw [List.isChain_append]
        refine ⟨hinit, List.isChain_singleton _, ?_⟩
        intro x hx y hy
        obtain rfl := Option.some.inj hy
        exact hjoin x hx last rfl
      · intro x hx
        rcases List.mem_append.mp hx with hx | hx
        · exact h.said x (List.mem_append_left _ hx)
        · rw [List.mem_singleton.mp hx]
          dsimp only
          rw [isBlankText_append, hm, Bool.and_false]
    · rename_i hrole
      constructor
      · rw [List.isChain_append]
        refine ⟨h.turns, List.isChain_singleton _, ?_⟩
        intro x hx y hy
        rw [List.getLast?_concat] at hx
        obtain rfl := Option.some.inj hx
        obtain rfl := Option.some.inj hy
        exact hrole
      · intro x hx
        rcases List.mem_append.mp hx with hx | hx
        · exact h.said x hx
        · rw [List.mem_singleton.mp hx]
          exact hm

theorem foldl_spoken {said : List OutgoingMessage} (hsaid : ∀ m ∈ said, isBlankText m.content = false)
    {msgs : List OutgoingMessage} (h : Spoken msgs) : Spoken (said.foldl pushMessage msgs) := by
  induction said generalizing msgs with
  | nil => exact h
  | cons m said ih =>
    rw [List.foldl_cons]
    exact ih (fun x hx => hsaid x (List.mem_cons_of_mem _ hx)) (h.push (hsaid m List.mem_cons_self))

theorem spokenMessages_said (entries : List ChatEntry) : ∀ m ∈ spokenMessages entries, isBlankText m.content = false := by
  intro m hm
  have htest := (List.mem_filter.mp hm).2
  rwa [Bool.not_eq_true'] at htest

/-- What the trim leaves is the longest end that fits, or the last message alone. -/
theorem trimMessages_spec (msgs : List OutgoingMessage) :
    trimMessages msgs <:+ msgs ∧ (trimMessages msgs).getLast? = msgs.getLast? ∧
      (1 < (trimMessages msgs).length → FitsTurn (trimMessages msgs)) ∧
      ∀ more, more <:+ msgs → (trimMessages msgs).length < more.length → ¬ FitsTurn more := by
  fun_induction trimMessages msgs with
  | case1 =>
    refine ⟨List.suffix_rfl, rfl, fun h => absurd h (Nat.not_lt_zero 1), ?_⟩
    intro more hmore hlong
    have hle := hmore.length_le
    omega
  | case2 m =>
    refine ⟨List.suffix_rfl, rfl, fun h => absurd h (Nat.lt_irrefl 1), ?_⟩
    intro more hmore hlong
    have hle := hmore.length_le
    omega
  | case3 m next rest hdrop ih =>
    obtain ⟨hsuffix, hlast, hfits, hlongest⟩ := ih
    refine ⟨hsuffix.trans (List.suffix_cons m _), ?_, hfits, ?_⟩
    · rw [hlast, List.getLast?_cons_cons]
    · intro more hmore hlong hmoreFits
      -- the whole does not fit, for the reason its first message is dropped
      rcases List.suffix_cons_iff.mp hmore with rfl | hmore
      · rcases hdrop with hcount | hbytes | hrole
        · exact absurd hmoreFits.count (Nat.not_le.mpr hcount)
        · exact absurd hmoreFits.bytes (Nat.not_le.mpr hbytes)
        · exact hrole (hmoreFits.first m rfl)
      · exact hlongest more hmore hlong hmoreFits
  | case4 m next rest hkeep =>
    refine ⟨List.suffix_rfl, rfl, fun _ => ?_, ?_⟩
    · refine ⟨?_, ?_, ?_⟩
      · exact Nat.not_lt.mp fun hcount => hkeep (.inl hcount)
      · exact Nat.not_lt.mp fun hbytes => hkeep (.inr (.inl hbytes))
      · intro x hx
        obtain rfl := Option.some.inj hx
        exact not_not.mp fun hrole => hkeep (.inr (.inr hrole))
    · intro more hmore hlong
      have hle := hmore.length_le
      omega

/-- A unit takes three bytes at most, and a pair of them four. -/
theorem utf8Length_le (s : JsString) : utf8Length s ≤ 3 * s.length := by
  have hsmall : ∀ c : Char, c.toNat < 0x10000 → (String.utf8EncodeChar c).length ≤ 3 := by
    intro c hc
    rw [String.length_utf8EncodeChar]
    unfold Char.utf8Size
    dsimp only
    have hval : c.val.toNat < 0x10000 := hc
    split
    · omega
    · split
      · omega
      · split
        · omega
        · rename_i hlarge
          rw [UInt32.le_iff_toNat_le] at hlarge
          exact absurd (show c.val.toNat ≤ 0xFFFF by omega) hlarge
  have hreplaced : (String.utf8EncodeChar Utf8.replacement).length ≤ 3 := hsmall _ (by decide)
  unfold utf8Length Utf8.encode
  fun_induction usvString s with
  | case1 => exact Nat.zero_le _
  | case2 u hlead =>
    rw [List.flatMap_cons, List.flatMap_nil, List.append_nil]
    exact hreplaced
  | case3 u hlead v rest htrail ih =>
    rw [List.flatMap_cons, List.length_append, String.length_utf8EncodeChar]
    have hfour := Char.utf8Size_le_four (pairChar u v)
    simp only [List.length_cons]
    omega
  | case4 u hlead v rest htrail ih =>
    rw [List.flatMap_cons, List.length_append]
    simp only [List.length_cons] at ih ⊢
    omega
  | case5 u us hlead htrail ih =>
    rw [List.flatMap_cons, List.length_append]
    simp only [List.length_cons]
    omega
  | case6 u us hlead htrail ih =>
    have hone : (String.utf8EncodeChar (Char.ofNat u.toNat)).length ≤ 3 := by
      refine hsmall _ ?_
      have hu := u.toNat_lt
      have hunit := congrArg UInt16.toNat (unit_ofNat hlead htrail)
      have hvalid : u.toNat.isValidChar := by
        rw [isLead_iff] at hlead
        rw [isTrail_iff] at htrail
        rcases Nat.lt_or_ge u.toNat 0xD800 with hlow | hhigh
        · exact Or.inl hlow
        · exact Or.inr ⟨by omega, by omega⟩
      rw [toNat_ofNat_of_valid hvalid]
      omega
    rw [List.flatMap_cons, List.length_append]
    simp only [List.length_cons]
    omega

/-- `MAX_INPUT_CHARS`. -/
def maxInputChars : Nat := 7000

/-- **A new message is sent with the longest end of its conversation that the server takes**: the
user begins and ends it, the roles take turns, nothing is blank and it holds forty messages at most.
The new text closes it; and where the last message was answered it is the last message itself, and
everything fits. -/
theorem outgoing_fits (prev : List ChatEntry) (id : Nat) {text : JsString} (htext : isBlankText text = false)
    (hlength : text.length ≤ maxInputChars) :
    Spoken (outgoing (prev ++ [.user id text false])) ∧
    (outgoing (prev ++ [.user id text false])).length ≤ maxMessages ∧
    (∀ m ∈ (outgoing (prev ++ [.user id text false])).head?, m.role = .user) ∧
    (∃ last, (outgoing (prev ++ [.user id text false])).getLast? = some last ∧ last.role = .user ∧
      text <:+ last.content) ∧
    (∀ more, more <:+ (spokenMessages (prev ++ [.user id text false])).foldl pushMessage [] →
      (outgoing (prev ++ [.user id text false])).length < more.length → ¬ FitsTurn more) ∧
    ((∀ m ∈ (spokenMessages prev).getLast?, m.role = .assistant) →
      FitsTurn (outgoing (prev ++ [.user id text false])) ∧
        (outgoing (prev ++ [.user id text false])).getLast? = some { role := .user, content := text }) := by
  have hsaid : spokenMessages (prev ++ [.user id text false]) = spokenMessages prev ++ [{ role := .user, content := text }] := by
    unfold spokenMessages
    rw [List.filterMap_append, List.filter_append]
    congr 1
    show List.filter _ [({ role := .user, content := text } : OutgoingMessage)] = _
    rw [List.filter_cons_of_pos (by rw [htext]; rfl), List.filter_nil]
  have hmerged : (spokenMessages (prev ++ [.user id text false])).foldl pushMessage [] =
      pushMessage ((spokenMessages prev).foldl pushMessage []) { role := .user, content := text } := by
    rw [hsaid, List.foldl_append, List.foldl_cons, List.foldl_nil]
  have hspoken : Spoken ((spokenMessages (prev ++ [.user id text false])).foldl pushMessage []) :=
    foldl_spoken (spokenMessages_said _) ⟨List.isChain_nil, fun m hm => absurd hm List.not_mem_nil⟩
  obtain ⟨last, hlast, hrole, hends, hsame⟩ := pushMessage_last ((spokenMessages prev).foldl pushMessage [])
    { role := .user, content := text }
  rw [← hmerged] at hlast
  obtain ⟨hsuffix, hkept, hfits, hlongest⟩ :=
    trimMessages_spec ((spokenMessages (prev ++ [.user id text false])).foldl pushMessage [])
  have hgetLast : (outgoing (prev ++ [.user id text false])).getLast? = some last := hkept.trans hlast
  -- the trim stops at the last message, fitting or not: alone it is the new text and what it was merged with
  have hcases : (outgoing (prev ++ [.user id text false])) = [last] ∨ 1 < (outgoing (prev ++ [.user id text false])).length := by
    cases hout : outgoing (prev ++ [.user id text false]) with
    | nil =>
      rw [hout] at hgetLast
      cases hgetLast
    | cons m msgs =>
      cases msgs with
      | nil =>
        rw [hout] at hgetLast
        exact .inl (congrArg (· :: []) (Option.some.inj hgetLast))
      | cons n msgs => exact .inr (by simp)
  refine ⟨⟨hspoken.turns.suffix hsuffix, fun m hm => hspoken.said m (hsuffix.subset hm)⟩, ?_, ?_,
    ⟨last, hgetLast, hrole, hends⟩, hlongest, ?_⟩
  · rcases hcases with hone | hmany
    · rw [hone, List.length_singleton]
      decide
    · exact (hfits hmany).count
  · rcases hcases with hone | hmany
    · rw [hone]
      intro m hm
      obtain rfl := Option.some.inj hm
      exact hrole
    · exact (hfits hmany).first
  · intro hanswered
    have hcontent : last.content = text := by
      refine hsame fun l hl => ?_
      rcases List.eq_nil_or_concat (spokenMessages prev) with hnil | ⟨init, final, hprev⟩
      · rw [hnil] at hl
        cases hl
      · rw [List.concat_eq_append] at hprev
        rw [hprev, List.getLast?_concat] at hanswered
        obtain ⟨l', hl', hrole', -, -⟩ := pushMessage_last (init.foldl pushMessage []) final
        rw [hprev, List.foldl_append, List.foldl_cons, List.foldl_nil, hl'] at hl
        obtain rfl := Option.some.inj hl
        rw [hrole', hanswered final rfl]
        exact ChatRole.noConfusion
    have hwhole : last = { role := .user, content := text } := by
      cases last
      exact OutgoingMessage.mk.injEq _ _ _ _ ▸ ⟨hrole, hcontent⟩
    refine ⟨?_, by rw [hgetLast, hwhole]⟩
    rcases hcases with hone | hmany
    · rw [hone]
      refine ⟨Nat.le_trans (Nat.le_of_eq (List.length_singleton)) (by decide), ?_, ?_⟩
      · -- seven thousand units are at most twenty-one thousand bytes
        have hbytes := utf8Length_le text
        have htotal : totalBytes [last] = utf8Length text := by
          unfold totalBytes
          rw [List.map_singleton, List.sum_singleton, hcontent]
        rw [htotal]
        unfold maxInputChars at hlength
        unfold maxBytes
        omega
      · intro m hm
        obtain rfl := Option.some.inj hm
        exact hrole
    · exact hfits hmany

/-- An answered question, a turn that failed, and a new one. -/
theorem outgoing_fits_new :
    outgoing [.user 1 (units ['a']) false, .assistant 2 (units ['b']), .user 3 (units ['c']) true, .error 4 "stopped",
      .user 5 (units ['d']) false] =
        [⟨.user, units ['a']⟩, ⟨.assistant, units ['b']⟩, ⟨.user, units ['d']⟩] ∧
      FitsTurn (outgoing [.user 1 (units ['a']) false, .assistant 2 (units ['b']), .user 3 (units ['c']) true,
        .error 4 "stopped", .user 5 (units ['d']) false]) := by
  refine ⟨by decide, ?_⟩
  exact ((outgoing_fits [.user 1 (units ['a']) false, .assistant 2 (units ['b']), .user 3 (units ['c']) true,
    .error 4 "stopped"] 5 (by decide) (by decide)).2.2.2.2.2 (by decide)).1

end BetterDecision
