import BetterDecision.Lib.Keyed
import BetterDecision.Model.AgentRevert

/-!
# What a revert undoes

The inverse sends every field the original sent: those it changed with the value they had
before, the others with the value they were sent with. So the first come back, if the tool
takes the old value as it is, and the others are set again to what they were sent as,
whatever they have become since: no change of the original names them, so no drift is seen
in them. `revert_exact` says that this is all that can go wrong.
-/

namespace BetterDecision

/-! ## Objects -/

section Objects

variable {J : Type}

theorem lookup_filter_none {a restore : ToolArgs J} {k : String} (h : restore.lookup k = none) :
    (a.filter (fun p => (restore.lookup p.1).isNone)).lookup k = a.lookup k := by
  induction a with
  | nil => rfl
  | cons p a ih =>
    rw [List.filter_cons, List.lookup_cons]
    by_cases hk : k = p.1
    · subst hk
      rw [if_pos (by rw [h]; rfl), List.lookup_cons, beq_self_eq_true]
    · have hne : (k == p.1) = false := by simpa using hk
      rw [hne]
      split
      · rw [List.lookup_cons, hne]
        exact ih
      · exact ih

/-- What is restored counts, and the rest stays. -/
theorem lookup_overlayArgs (a restore : ToolArgs J) (k : String) :
    (overlayArgs a restore).lookup k = (restore.lookup k).or (a.lookup k) := by
  rw [overlayArgs, List.lookup_append]
  rcases h : restore.lookup k with _ | v
  · rw [Option.none_or, Option.none_or, lookup_filter_none h]
  · rfl

end Objects

variable {J W : Type} {env : RevertEnv J W} {tool : WriteTool J W} {s s' : ToolWorld J W}
variable {args raw : ToolArgs J} {row : ToolRow J} {id : J}

/-! ## Arguments -/

/-- What a tool makes of its arguments, one by one. -/
structure Validated (tool : WriteTool J W) (raw args : ToolArgs J) : Prop where
  lookup : ∀ k, args.lookup k = (raw.lookup k).bind (tool.normalise k)
  taken : ∀ k v, raw.lookup k = some v → ∃ v', tool.normalise k v = some v'
  known : ∀ k v, raw.lookup k = some v → k = tool.idName ∨ k ∈ tool.fields

theorem modelValidate_some (h : tool.modelValidate raw = some args) : Validated tool raw args := by
  unfold WriteTool.modelValidate at h
  simp only [Option.bind_eq_bind, Option.bind_eq_some_iff] at h
  obtain ⟨_, hknown, _, -, args', hmap, _, -, h⟩ := h
  obtain rfl := Option.some.inj h
  have hknown : raw.all (fun p => p.1 == tool.idName || tool.fields.contains p.1) = true := by
    unfold guard at hknown
    split at hknown
    · assumption
    · cases hknown
  have hall : ∀ (raw args : ToolArgs J), raw.mapM (fun p => (tool.normalise p.1 p.2).map (fun v => (p.1, v))) = some args →
      ∀ k, args.lookup k = (raw.lookup k).bind (tool.normalise k) ∧
        ∀ v, raw.lookup k = some v → ∃ v', tool.normalise k v = some v' := by
    intro raw
    induction raw with
    | nil =>
      intro args h k
      obtain rfl := Option.some.inj h
      exact ⟨rfl, fun v hv => by cases hv⟩
    | cons p raw ih =>
      intro args h k
      rw [List.mapM_cons] at h
      simp only [Option.bind_eq_bind, Option.bind_eq_some_iff, Option.pure_def] at h
      obtain ⟨q, hq, rest, hrest, h⟩ := h
      obtain rfl := Option.some.inj h
      obtain ⟨v, hv, rfl⟩ := Option.map_eq_some_iff.mp hq
      rw [List.lookup_cons, List.lookup_cons]
      by_cases hk : k = p.1
      · subst hk
        simp only [beq_self_eq_true, Option.bind_some, Option.some.injEq]
        exact ⟨hv.symm, fun w hw => ⟨v, by rw [← hw]; exact hv⟩⟩
      · have hne : (k == p.1) = false := by simpa using hk
        simp only [hne]
        exact ih rest hrest k
  refine ⟨fun k => (hall raw args' hmap k).1, fun k => (hall raw args' hmap k).2, fun k v hv => ?_⟩
  have hk := List.all_eq_true.mp hknown (k, v) (mem_of_lookup_eq_some hv)
  simpa using hk

/-- Validated arguments are in normal form. -/
theorem Validated.normal (h : Validated tool raw args) {k : String} {v : J} (hv : args.lookup k = some v) :
    tool.normalise k v = some v := by
  rw [h.lookup] at hv
  obtain ⟨u, -, hu⟩ := Option.bind_eq_some_iff.mp hv
  exact tool.normalise_normal k u v hu

theorem Validated.known_args (h : Validated tool raw args) {k : String} {v : J} (hv : args.lookup k = some v) :
    k = tool.idName ∨ k ∈ tool.fields := by
  rw [h.lookup] at hv
  obtain ⟨u, hu, -⟩ := Option.bind_eq_some_iff.mp hv
  exact h.known k u hu

/-- Validating once more changes nothing. -/
theorem Validated.again (h : Validated tool raw args) {args' : ToolArgs J} (h' : Validated tool args args') (k : String) :
    args'.lookup k = args.lookup k := by
  rw [h'.lookup]
  rcases hv : args.lookup k with _ | v
  · rfl
  · rw [Option.bind_some, h.normal hv]

/-! ## Previews -/

/-- The write changes the field: it sends another value than the row has. -/
def ChangedBy (tool : WriteTool J W) (row : ToolRow J) (args : ToolArgs J) (f : String) : Prop :=
  f ∈ tool.fields ∧ ∃ v, args.lookup f = some v ∧ v ≠ row f

theorem disclose_inj {f : String} {a b : J} (h : tool.disclose f a = tool.disclose f b) : a = b := by
  unfold WriteTool.disclose at h
  split at h
  · split at h
    · exact Disclosed.untrusted.inj h
    · cases h
  · split at h
    · cases h
    · exact Disclosed.plain.inj h

theorem unwrap_disclose (f : String) (a : J) : (tool.disclose f a).unwrap = a := by
  unfold WriteTool.disclose
  split <;> rfl

variable [DecidableEq J]

theorem mem_rowChanges {c : RowChange J} : c ∈ tool.rowChanges id row args ↔
    ∃ f v, f ∈ tool.fields ∧ args.lookup f = some v ∧ v ≠ row f ∧
      c = { entity := tool.entity, id := .plain id, field := f, before := tool.disclose f (row f)
            after := tool.disclose f v } := by
  unfold WriteTool.rowChanges
  rw [List.mem_filterMap]
  constructor
  · intro ⟨f, hf, h⟩
    obtain ⟨v, hv, h⟩ := Option.bind_eq_some_iff.mp h
    dsimp only at h
    split at h
    · rename_i hne
      exact ⟨f, v, hf, hv, fun heq => hne (by rw [heq]), (Option.some.inj h).symm⟩
    · cases h
  · intro ⟨f, v, hf, hv, hne, hc⟩
    refine ⟨f, hf, Option.bind_eq_some_iff.mpr ⟨v, hv, ?_⟩⟩
    dsimp only
    rw [if_pos fun heq => hne (disclose_inj heq).symm, hc]

theorem mem_rowChanges_of_ne (id : J) {f : String} {v : J} (hf : f ∈ tool.fields) (hv : args.lookup f = some v)
    (hne : v ≠ row f) :
    { entity := tool.entity, id := .plain id, field := f, before := tool.disclose f (row f)
      after := tool.disclose f v } ∈ tool.rowChanges id row args :=
  mem_rowChanges.mpr ⟨f, v, hf, hv, hne, rfl⟩

theorem changedBy_iff {f : String} : ChangedBy tool row args f ↔ ∃ c ∈ tool.rowChanges id row args, c.field = f := by
  constructor
  · intro ⟨hf, v, hv, hne⟩
    exact ⟨_, mem_rowChanges_of_ne id hf hv hne, rfl⟩
  · intro ⟨c, hc, hcf⟩
    obtain ⟨g, v, hg, hv, hne, rfl⟩ := mem_rowChanges.mp hc
    obtain rfl : g = f := hcf
    exact ⟨hg, v, hv, hne⟩

omit [DecidableEq J] in
theorem load_ok (h : tool.load s args = .ok (id, row)) : args.lookup tool.idName = some id ∧ s.rows id = some row := by
  obtain ⟨i, hi, h⟩ := bind_eq_ok.mp h
  obtain ⟨r, hr, h⟩ := bind_eq_ok.mp h
  obtain ⟨rfl, rfl⟩ := Prod.mk.inj (Except.ok.inj h)
  exact ⟨found_eq_ok.mp hi, found_eq_ok.mp hr⟩

/-- The changes of the row come first, and those `present` adds are of other rows. -/
theorem previewOf_ok {changes : List (RowChange J)} {reason : Option String}
    (h : tool.previewOf s args = .ok (changes, reason)) :
    ∃ id row derived, tool.load s args = .ok (id, row) ∧ changes = tool.rowChanges id row args ++ derived ∧
      tool.rowChanges id row args ≠ [] ∧ ∀ c ∈ derived, ¬ (c.entity = tool.entity ∧ c.id = .plain id) := by
  obtain ⟨⟨i, r⟩, hload, h⟩ := bind_eq_ok.mp h
  obtain ⟨_, _, h⟩ := bind_eq_ok.mp h
  obtain ⟨_, hsome, h⟩ := bind_eq_ok.mp h
  obtain ⟨⟨derived, why⟩, hpresent, h⟩ := bind_eq_ok.mp h
  obtain ⟨rfl, rfl⟩ := Prod.mk.inj (Except.ok.inj h)
  have hsome := refuse_eq_ok.mp hsome
  refine ⟨i, r, derived, hload, rfl, hsome, fun c hc hown => ?_⟩
  obtain ⟨p, hp⟩ := List.exists_mem_of_ne_nil _ hsome
  obtain ⟨f, v, -, -, -, rfl⟩ := mem_rowChanges.mp hp
  exact tool.present_others _ _ _ _ _ _ hpresent c hc _ hp hown

/-- What is stored of a staged write. -/
theorem stageWrite_ok {userId orgId : Nat} {reverts : Option Nat} {action : StoredAction J}
    (h : stageWrite env tool s userId orgId raw reverts = .ok action) :
    Validated tool raw action.argsJson ∧ ∃ id row derived, tool.load s action.argsJson = .ok (id, row) ∧
      action.changes = tool.rowChanges id row action.argsJson ++ derived ∧
      tool.rowChanges id row action.argsJson ≠ [] ∧ action.tool = tool.name ∧
      (∀ c ∈ derived, ¬ (c.entity = tool.entity ∧ c.id = .plain id)) := by
  obtain ⟨args, hargs, h⟩ := bind_eq_ok.mp h
  obtain ⟨_, _, h⟩ := bind_eq_ok.mp h
  obtain ⟨⟨changes, reason⟩, hpreview, h⟩ := bind_eq_ok.mp h
  obtain ⟨_, _, h⟩ := bind_eq_ok.mp h
  obtain ⟨risk, _, h⟩ := bind_eq_ok.mp h
  obtain rfl := Except.ok.inj h
  refine ⟨modelValidate_some (found_eq_ok.mp hargs), ?_⟩
  have hpreview : tool.previewOf s args = .ok (changes, reason) := by
    rcases hp : tool.previewOf s args with (e | _) | pv
    · rw [hp] at hpreview
      cases hpreview
    · rw [hp] at hpreview
      cases hpreview
    · rw [hp] at hpreview
      rw [Except.ok.inj hpreview]
  obtain ⟨id, row, derived, hload, rfl, hsome, hothers⟩ := previewOf_ok hpreview
  refine ⟨id, row, derived.filter (fun c => c.entity == tool.entity ||
    env.shown (tool.rowChanges id row args ++ derived) c), hload, ?_, hsome, rfl,
    fun c hc => hothers c (List.mem_of_mem_filter hc)⟩
  dsimp only
  rw [List.filter_append]
  congr 1
  refine List.filter_eq_self.mpr fun c hc => ?_
  obtain ⟨f, v, -, -, -, rfl⟩ := mem_rowChanges.mp hc
  simp

/-! ## The inverse -/

section Inverse

variable {row₀ : ToolRow J} {changes derived : List (RowChange J)}

/-- The changes a write states: those of its row, and others. -/
structure Stated (tool : WriteTool J W) (id : J) (row₀ : ToolRow J) (args : ToolArgs J)
    (changes : List (RowChange J)) : Prop where
  own : ∀ c, c ∈ tool.rowChanges id row₀ args ↔ c ∈ changes ∧ c.entity = tool.entity ∧ c.id = .plain id
  first : ∃ c ∈ tool.rowChanges id row₀ args, changes.head? = some c

theorem stated_append (hsome : tool.rowChanges id row₀ args ≠ [])
    (hothers : ∀ c ∈ derived, ¬ (c.entity = tool.entity ∧ c.id = .plain id)) :
    Stated tool id row₀ args (tool.rowChanges id row₀ args ++ derived) := by
  refine ⟨fun c => ⟨fun hc => ⟨List.mem_append_left _ hc, ?_⟩, fun ⟨hc, hown⟩ => ?_⟩, ?_⟩
  · obtain ⟨f, v, -, -, -, rfl⟩ := mem_rowChanges.mp hc
    exact ⟨rfl, rfl⟩
  · rcases List.mem_append.mp hc with hc | hc
    · exact hc
    · exact absurd hown (hothers c hc)
  · obtain ⟨c, rest, hc⟩ := List.exists_cons_of_ne_nil hsome
    exact ⟨c, by rw [hc]; exact List.mem_cons_self, by rw [hc]; rfl⟩

theorem primary_entity (h : Stated tool id row₀ args changes) {p : RowChange J} (hp : changes.head? = some p) :
    p.entity = tool.entity := by
  obtain ⟨q, hq, hfirst⟩ := h.first
  obtain rfl := Option.some.inj (hp.symm.trans hfirst)
  exact ((h.own p).mp hq).2.1

/-- What is put back is what the changed fields were. -/
theorem mem_restoreOf (h : Stated tool id row₀ args changes) {p : RowChange J} (hp : changes.head? = some p)
    {k : String} {v : J} : (k, v) ∈ restoreOf p changes ↔ ChangedBy tool row₀ args k ∧ v = row₀ k := by
  obtain ⟨q, hq, hfirst⟩ := h.first
  obtain rfl := Option.some.inj (hp.symm.trans hfirst)
  obtain ⟨-, hentity, hid⟩ := (h.own p).mp hq
  unfold restoreOf
  rw [List.mem_reverse, List.mem_map]
  constructor
  · intro ⟨c, hc, heq⟩
    obtain ⟨rfl, rfl⟩ := Prod.mk.inj heq
    obtain ⟨hc, hown⟩ := List.mem_filter.mp hc
    rw [Bool.and_eq_true, beq_iff_eq, beq_iff_eq, hentity, hid] at hown
    have hmem := (h.own c).mpr ⟨hc, hown⟩
    refine ⟨changedBy_iff.mpr ⟨c, hmem, rfl⟩, ?_⟩
    obtain ⟨f, v, -, -, -, rfl⟩ := mem_rowChanges.mp hmem
    exact unwrap_disclose f (row₀ f)
  · intro ⟨hchanged, hv⟩
    obtain ⟨hf, w, hw, hne⟩ := hchanged
    have hmem := mem_rowChanges_of_ne id hf hw hne
    refine ⟨_, List.mem_filter.mpr ⟨((h.own _).mp hmem).1, ?_⟩, ?_⟩
    · rw [hentity, hid, beq_self_eq_true, beq_self_eq_true]
      rfl
    · rw [unwrap_disclose, hv]

theorem restoreOf_changed (h : Stated tool id row₀ args changes) {p : RowChange J} (hp : changes.head? = some p)
    {k : String} (hk : ChangedBy tool row₀ args k) : (restoreOf p changes).lookup k = some (row₀ k) := by
  obtain ⟨v, hv⟩ := exists_lookup_of_mem ((mem_restoreOf h hp).mpr ⟨hk, rfl⟩)
  rw [hv, ((mem_restoreOf h hp).mp (mem_of_lookup_eq_some hv)).2]

theorem restoreOf_kept (h : Stated tool id row₀ args changes) {p : RowChange J} (hp : changes.head? = some p)
    {k : String} (hk : ¬ ChangedBy tool row₀ args k) : (restoreOf p changes).lookup k = none :=
  lookup_eq_none_of_not_mem fun _ hv => hk ((mem_restoreOf h hp).mp hv).1

/-- The field a change of the row ends with. -/
theorem expectedAfter_own (h : Stated tool id row₀ args changes) {c : RowChange J} (hc : c.id = .plain id)
    {v : J} (hf : c.field ∈ tool.fields) (hv : args.lookup c.field = some v) (hne : v ≠ row₀ c.field) :
    expectedAfter changes tool.entity c = some (tool.disclose c.field v) := by
  have hmem := mem_rowChanges_of_ne id hf hv hne
  unfold expectedAfter
  rcases hfind : (changes.filter (fun o => o.entity == tool.entity)).reverse.find?
    (fun o => o.id == c.id && o.field == c.field) with _ | o
  · have hin := ((h.own _).mp hmem).1
    have hno := List.find?_eq_none.mp hfind _ (List.mem_reverse.mpr (List.mem_filter.mpr ⟨hin, by simp⟩))
    simp [hc] at hno
  · -- whichever change of the field is found, it is one of the row
    have hmatch := List.find?_some hfind
    rw [Bool.and_eq_true, beq_iff_eq, beq_iff_eq, hc] at hmatch
    obtain ⟨hin, hentity⟩ := List.mem_filter.mp (List.mem_reverse.mp (List.mem_of_find?_eq_some hfind))
    have hown := (h.own o).mpr ⟨hin, beq_iff_eq.mp hentity, hmatch.1⟩
    obtain ⟨f, w, -, hw, -, rfl⟩ := mem_rowChanges.mp hown
    obtain rfl : f = c.field := hmatch.2
    obtain rfl := Option.some.inj (hw.symm.trans hv)
    rw [hfind]
    rfl

end Inverse

theorem inverseArgs_ok {action : StoredAction J} {inverse : ToolArgs J} (h : inverseArgs tool action = .ok inverse) :
    ∃ p, action.changes.head? = some p ∧ inverse = overlayArgs action.argsJson (restoreOf p action.changes) := by
  unfold inverseArgs at h
  split at h
  · cases h
  obtain ⟨_, _, h⟩ := bind_eq_ok.mp h
  obtain ⟨p, hp, h⟩ := bind_eq_ok.mp h
  obtain ⟨_, _, h⟩ := bind_eq_ok.mp h
  exact ⟨p, found_eq_ok.mp hp, (Except.ok.inj h).symm⟩

theorem callMapped_ok {α : Type} {x : Except HookFailure α} {a : α} (h : callMapped x = .ok a) : x = .ok a := by
  rcases x with (e | _) | b
  · cases h
  · cases h
  · rw [Except.ok.inj h]

/-- The row once the arguments are written. -/
def WrittenBack (tool : WriteTool J W) (sent : ToolArgs J) (row row' : ToolRow J) : Prop :=
  ∀ f, row' f = if f ∈ tool.fields then (sent.lookup f).getD (row f) else row f

/-- A confirmed write writes the arguments that were staged. -/
theorem confirmWrite_ok {action : StoredAction J} (hvalid : Validated tool raw action.argsJson)
    (hload : tool.load s action.argsJson = .ok (id, row)) (h : confirmWrite env tool s action = .ok s') :
    ∃ row', s'.rows id = some row' ∧
      WrittenBack tool action.argsJson row row' := by
  obtain ⟨_, _, h⟩ := bind_eq_ok.mp h
  obtain ⟨args', hargs, h⟩ := bind_eq_ok.mp h
  obtain ⟨_, _, h⟩ := bind_eq_ok.mp h
  obtain ⟨_, _, h⟩ := bind_eq_ok.mp h
  have h := callMapped_ok h
  have hagain := hvalid.again (modelValidate_some (found_eq_ok.mp hargs))
  obtain ⟨⟨i, r⟩, hload', h⟩ := bind_eq_ok.mp h
  obtain rfl := Except.ok.inj h
  obtain ⟨hi, hr⟩ := load_ok hload
  obtain ⟨hi', hr'⟩ := load_ok hload'
  rw [hagain, hi] at hi'
  obtain rfl := Option.some.inj hi'
  obtain rfl := Option.some.inj (hr.symm.trans hr')
  refine ⟨tool.written row args', if_pos rfl, fun f => ?_⟩
  rw [WriteTool.written, hagain]

/-! ## Reverting -/

section Reverting

/-- The revert did what it is for. -/
structure Undone (tool : WriteTool J W) (row₀ : ToolRow J) (args : ToolArgs J) (row row' : ToolRow J) : Prop where
  restored : ∀ f, ChangedBy tool row₀ args f → row' f = row₀ f
  others : ∀ f, ¬ ChangedBy tool row₀ args f → row' f = row f

/-- A field the write changed is neither as the write left it nor as it was. -/
def Drifted (tool : WriteTool J W) (row₀ : ToolRow J) (args : ToolArgs J) (row : ToolRow J) (f : String) : Prop :=
  ChangedBy tool row₀ args f ∧ args.lookup f ≠ some (row f) ∧ row f ≠ row₀ f

/-- The old values are in normal form, and what the write sent without changing it has not
been edited since. -/
structure Restorable (tool : WriteTool J W) (row₀ : ToolRow J) (args : ToolArgs J) (row : ToolRow J) : Prop where
  accepted : ∀ f, ChangedBy tool row₀ args f → ∀ v, tool.normalise f (row₀ f) = some v → v = row₀ f
  untouched : ∀ f ∈ tool.fields, ∀ v, args.lookup f = some v → ¬ ChangedBy tool row₀ args f → row f = v

variable {row₀ : ToolRow J} {action staged : StoredAction J} {inverse : ToolArgs J} {userId orgId : Nat}
variable {reverts : Option Nat}

/-- The arguments of the staged inverse, field by field. -/
structure Inverted (tool : WriteTool J W) (row₀ : ToolRow J) (args sent : ToolArgs J) : Prop where
  changed : ∀ f, ChangedBy tool row₀ args f → ∃ v, tool.normalise f (row₀ f) = some v ∧ sent.lookup f = some v
  kept : ∀ f, ¬ ChangedBy tool row₀ args f → sent.lookup f = args.lookup f

theorem inverted (hvalid : Validated tool raw args) {changes : List (RowChange J)}
    (hstated : Stated tool id row₀ args changes) {p : RowChange J} (hp : changes.head? = some p) {sent : ToolArgs J}
    (hsent : Validated tool (overlayArgs args (restoreOf p changes)) sent) : Inverted tool row₀ args sent := by
  constructor
  · intro f hf
    have hlookup : (overlayArgs args (restoreOf p changes)).lookup f = some (row₀ f) := by
      rw [lookup_overlayArgs, restoreOf_changed hstated hp hf, Option.some_or]
    obtain ⟨v, hv⟩ := hsent.taken f (row₀ f) hlookup
    refine ⟨v, hv, ?_⟩
    rw [hsent.lookup, hlookup, Option.bind_some, hv]
  · intro f hf
    rw [hsent.lookup, lookup_overlayArgs, restoreOf_kept hstated hp hf, Option.none_or]
    rcases hv : args.lookup f with _ | v
    · rfl
    · rw [Option.bind_some, hvalid.normal hv]

omit [DecidableEq J] in
theorem ChangedBy.ne_id {f : String} (h : ChangedBy tool row₀ args f) : f ≠ tool.idName :=
  fun heq => tool.idName_notMem (heq ▸ h.1)

omit [DecidableEq J] in
/-- The inverse addresses the same row. -/
theorem Inverted.load {args sent : ToolArgs J} (h : Inverted tool row₀ args sent) (hid : args.lookup tool.idName = some id)
    {id' : J} {row' : ToolRow J} (hrow : s.rows id = some row) (hload : tool.load s sent = .ok (id', row')) :
    id' = id ∧ row' = row := by
  obtain ⟨hid', hrow'⟩ := load_ok hload
  rw [h.kept _ fun hc => hc.ne_id rfl, hid] at hid'
  obtain rfl := Option.some.inj hid'
  exact ⟨rfl, (Option.some.inj (hrow.symm.trans hrow')).symm⟩

/-- Where no drift is seen, each changed field is as the write left it, or already as the
inverse sends it. -/
theorem drift_nil {changes stagedChanges : List (RowChange J)} {sent : ToolArgs J}
    (hstated : Stated tool id row₀ args changes) (hinverted : Inverted tool row₀ args sent)
    (hstaged : Stated tool id row sent stagedChanges) (hdrift : driftOf changes tool.entity stagedChanges = [])
    {f : String} (hf : ChangedBy tool row₀ args f) : args.lookup f = some (row f) ∨ sent.lookup f = some (row f) := by
  have ⟨hfield, v, hv, hne⟩ := hf
  obtain ⟨w, -, hw⟩ := hinverted.changed f hf
  by_cases hsame : w = row f
  · exact Or.inr (hsame ▸ hw)
  · -- the inverse changes the field, so where it starts from is compared
    have hmem := mem_rowChanges_of_ne id hfield hw hsame
    have hkept := List.filter_eq_nil_iff.mp hdrift _ ((hstaged.own _).mp hmem).1
    rw [expectedAfter_own hstated rfl hfield hv hne] at hkept
    have hbefore : tool.disclose f (row f) = tool.disclose f v := by
      by_contra hother
      exact hkept (by simp [hother])
    exact Or.inl (disclose_inj hbefore ▸ hv)

omit [DecidableEq J] in
theorem WrittenBack.changed {sent : ToolArgs J} {row' : ToolRow J} (h : WrittenBack tool sent row row')
    (hinverted : Inverted tool row₀ args sent) {f : String} (hf : ChangedBy tool row₀ args f) :
    tool.normalise f (row₀ f) = some (row' f) := by
  obtain ⟨v, hnormal, hv⟩ := hinverted.changed f hf
  rw [h f, if_pos hf.1, hv, Option.getD_some, hnormal]

omit [DecidableEq J] in
theorem WrittenBack.kept {sent : ToolArgs J} {row' : ToolRow J} (h : WrittenBack tool sent row row')
    (hinverted : Inverted tool row₀ args sent) {f : String} (hf : ¬ ChangedBy tool row₀ args f) :
    row' f = if f ∈ tool.fields then (args.lookup f).getD (row f) else row f := by
  rw [h f, hinverted.kept f hf]

omit [DecidableEq J] in
theorem restorable_of_undone {sent : ToolArgs J} {row' : ToolRow J} (h : WrittenBack tool sent row row')
    (hinverted : Inverted tool row₀ args sent) (hundone : Undone tool row₀ args row row') :
    Restorable tool row₀ args row := by
  constructor
  · intro f hf v hv
    rw [h.changed hinverted hf] at hv
    rw [← Option.some.inj hv]
    exact hundone.restored f hf
  · intro f hfield v hv hf
    have hkept := h.kept hinverted hf
    rw [if_pos hfield, hv, Option.getD_some] at hkept
    rw [← hkept]
    exact (hundone.others f hf).symm

omit [DecidableEq J] in
theorem undone_of_restorable {sent : ToolArgs J} {row' : ToolRow J} (h : WrittenBack tool sent row row')
    (hinverted : Inverted tool row₀ args sent) (hrestorable : Restorable tool row₀ args row) :
    Undone tool row₀ args row row' := by
  constructor
  · intro f hf
    exact hrestorable.accepted f hf _ (h.changed hinverted hf)
  · intro f hf
    rw [h.kept hinverted hf]
    split
    · rename_i hfield
      rcases hv : args.lookup f with _ | v
      · rfl
      · exact (hrestorable.untouched f hfield v hv hf).symm
    · rfl

theorem stageWrite_stated (h : stageWrite env tool s userId orgId raw reverts = .ok action) :
    Validated tool raw action.argsJson ∧ ∃ id row, tool.load s action.argsJson = .ok (id, row) ∧
      Stated tool id row action.argsJson action.changes := by
  obtain ⟨hvalid, id, row, derived, hload, hchanges, hsome, -, hothers⟩ := stageWrite_ok h
  exact ⟨hvalid, id, row, hload, by rw [hchanges]; exact stated_append hsome hothers⟩

theorem stageRevert_ok {tools : List (WriteTool J W)} {actions : Table (StoredAction J)} {actionId : Nat}
    (haction : actions.get? actionId = some action) (htool : tools.find? (·.name == action.tool) = some tool)
    {drift : List (RowChange J)} (h : stageRevert env tools s userId orgId actions actionId = .ok (staged, drift)) :
    ∃ inverse p, inverseArgs tool action = .ok inverse ∧ action.changes.head? = some p ∧
      stageWrite env tool s userId orgId inverse (some actionId) = .ok staged ∧
      drift = driftOf action.changes p.entity staged.changes := by
  obtain ⟨row, hrow, h⟩ := bind_eq_ok.mp h
  obtain ⟨_, _, h⟩ := bind_eq_ok.mp h
  obtain ⟨_, _, h⟩ := bind_eq_ok.mp h
  obtain ⟨t, ht, h⟩ := bind_eq_ok.mp h
  obtain ⟨_, _, h⟩ := bind_eq_ok.mp h
  obtain ⟨inverse, hinverse, h⟩ := bind_eq_ok.mp h
  obtain ⟨st, hst, h⟩ := bind_eq_ok.mp h
  obtain ⟨p, hp, h⟩ := bind_eq_ok.mp h
  obtain ⟨rfl, rfl⟩ := Prod.mk.inj (Except.ok.inj h)
  have hrow := found_eq_ok.mp hrow
  rw [haction] at hrow
  obtain rfl := Option.some.inj (Option.filter_eq_some_iff.mp hrow).1
  obtain rfl := Option.some.inj ((found_eq_ok.mp ht).symm.trans htool)
  exact ⟨inverse, p, hinverse, found_eq_ok.mp hp, hst, rfl⟩

/-- A revert undoes a write and nothing else exactly when the old values are as the tool
would take them and the fields that were sent without a change are still as sent. A changed
field that has moved since is told. -/
theorem revert_exact {tools : List (WriteTool J W)} {s₀ : ToolWorld J W} {actions : Table (StoredAction J)}
    {actionId : Nat} {drift : List (RowChange J)}
    (hwrite : stageWrite env tool s₀ userId orgId raw reverts = .ok action)
    (hload : tool.load s₀ action.argsJson = .ok (id, row₀))
    (haction : actions.get? actionId = some { action with status := .done })
    (htool : tools.find? (·.name == action.tool) = some tool) (hrow : s.rows id = some row)
    (hstage : stageRevert env tools s userId orgId actions actionId = .ok (staged, drift)) :
    if drift = [] then
      revertAction env tools s userId orgId actions actionId = .ok staged ∧
      ∀ s', confirmWrite env tool s staged = .ok s' → ∃ row', s'.rows id = some row' ∧
        ((Undone tool row₀ action.argsJson row row' ∧ ∀ f, ¬ Drifted tool row₀ action.argsJson row f) ↔
          Restorable tool row₀ action.argsJson row)
    else revertAction env tools s userId orgId actions actionId = .error revertDrift := by
  have hreturn : revertAction env tools s userId orgId actions actionId =
      (do refuse (drift ≠ []) revertDrift; .ok staged) := by
    unfold revertAction
    rw [hstage]
    rfl
  split
  case isFalse hdrift =>
    rw [hreturn, refuse, if_pos hdrift]
    rfl
  case isTrue hdrift =>
    subst hdrift
    refine ⟨by rw [hreturn, refuse, if_neg (by simp)]; rfl, fun s' hconfirm => ?_⟩
    obtain ⟨hvalid, id', row', hload', hstated⟩ := stageWrite_stated hwrite
    obtain ⟨rfl, rfl⟩ := Prod.mk.inj (Except.ok.inj (hload.symm.trans hload'))
    obtain ⟨inverse, p, hinverse, hp, hst, hdrift⟩ := stageRevert_ok haction htool hstage
    obtain ⟨q, hq, rfl⟩ := inverseArgs_ok hinverse
    obtain rfl := Option.some.inj (hp.symm.trans hq)
    obtain ⟨hsent, id', row', hloadSent, hstagedStated⟩ := stageWrite_stated hst
    have hinverted := inverted hvalid hstated hp hsent
    obtain ⟨rfl, rfl⟩ := hinverted.load (load_ok hload).1 hrow hloadSent
    obtain ⟨row', hrow', hwritten⟩ := confirmWrite_ok hsent hloadSent hconfirm
    refine ⟨row', hrow', ?_⟩
    constructor
    · intro ⟨hundone, _⟩
      exact restorable_of_undone hwritten hinverted hundone
    · intro hrestorable
      refine ⟨undone_of_restorable hwritten hinverted hrestorable, fun f ⟨hf, hleft, hbefore⟩ => ?_⟩
      rw [primary_entity hstated hp] at hdrift
      rcases drift_nil hstated hinverted hstagedStated hdrift.symm hf with hafter | hsame
      · exact hleft hafter
      · obtain ⟨v, hv, hw⟩ := hinverted.changed f hf
        obtain rfl := Option.some.inj (hw.symm.trans hsame)
        exact hbefore (hrestorable.accepted f hf _ hv)

end Reverting

/-! An expense is moved to another day, with its description sent along unchanged. -/

private def expenseTool : WriteTool String Unit where
  name := "transactions_update"
  entity := "transactions"
  idName := "transaction_id"
  fields := ["description", "date", "settled_date"]
  normalise := fun _ v => some v
  isUntrusted := fun f _ => f == "description"
  idName_notMem := by decide
  normalise_normal := fun _ _ _ _ => by simp
  present_others := by
    intro _ _ _ _ derived _ h c hc
    obtain ⟨rfl, -⟩ := Prod.mk.inj (Except.ok.inj h)
    cases hc

private def expenseEnv : RevertEnv String Unit where
  admits := fun _ _ => .ok ()
  fits := fun _ _ => .ok ()
  shown := fun _ _ => true
  fingerprint := fun tool args changes => String.join
    (tool :: args.map (fun p => p.1 ++ p.2) ++ changes.map (fun c => c.field ++ c.before.unwrap ++ c.after.unwrap))

private def expenseRow (description date : String) : ToolRow String :=
  fun f => if f = "description" then description else date

private def expenseWorld (description date : String) : ToolWorld String Unit where
  rows := fun id => if id = "7" then some (expenseRow description date) else none
  rest := ()

private def expenseArgs (date : String) : ToolArgs String :=
  [("transaction_id", "7"), ("description", "Coffee"), ("date", date)]

private def expenseInverse : ToolArgs String :=
  [("date", "2026-07-01"), ("transaction_id", "7"), ("description", "Coffee")]

private def expenseChange (field : String) (before after : Disclosed String) : RowChange String where
  entity := "transactions"
  id := .plain "7"
  field
  before := before
  after := after

private def expenseAction (args : ToolArgs String) (changes : List (RowChange String)) (reverts : Option Nat) :
    StoredAction String where
  orgId := 1
  userId := 1
  tool := "transactions_update"
  risk := .write
  argsJson := args
  fingerprint := expenseEnv.fingerprint "transactions_update" args changes
  changes
  notRevertible := none
  reverts := reverts

private def expenseMoved : StoredAction String :=
  expenseAction (expenseArgs "2026-07-02") [expenseChange "date" (.plain "2026-07-01") (.plain "2026-07-02")] none

private def expenseActions : Table (StoredAction String) := Table.empty.insert { expenseMoved with status := .done }

private theorem expense_restorable : Restorable expenseTool (expenseRow "Coffee" "2026-07-01") expenseMoved.argsJson
    (expenseRow "Coffee" "2026-07-02") := by
  constructor
  · intro f _ v hv
    exact (Option.some.inj hv).symm
  · intro f hf v hv hsame
    rcases List.mem_cons.mp hf with rfl | hf
    · exact Option.some.inj hv
    · refine absurd ⟨List.mem_cons_of_mem _ hf, v, hv, ?_⟩ hsame
      rcases List.mem_cons.mp hf with rfl | hf
      · obtain rfl := Option.some.inj hv
        decide
      · obtain rfl := List.mem_singleton.mp hf
        cases hv

/-- The move is reverted in time: the day comes back, and the description stays. -/
theorem revert_exact_moved :
    ∃ s' row', confirmWrite expenseEnv expenseTool (expenseWorld "Coffee" "2026-07-02")
        (expenseAction expenseInverse [expenseChange "date" (.plain "2026-07-02") (.plain "2026-07-01")] (some 1)) =
          .ok s' ∧ s'.rows "7" = some row' ∧
      Undone expenseTool (expenseRow "Coffee" "2026-07-01") expenseMoved.argsJson
        (expenseRow "Coffee" "2026-07-02") row' := by
  have hwrite : stageWrite expenseEnv expenseTool (expenseWorld "Coffee" "2026-07-01") 1 1
      (expenseArgs "2026-07-02") none = .ok expenseMoved := by decide +kernel
  have hload : expenseTool.load (expenseWorld "Coffee" "2026-07-01") expenseMoved.argsJson =
      .ok ("7", expenseRow "Coffee" "2026-07-01") := by rfl
  have haction : expenseActions.get? 1 = some { expenseMoved with status := .done } := by decide +kernel
  have htool : [expenseTool].find? (·.name == expenseMoved.tool) = some expenseTool := by rfl
  have hrow : (expenseWorld "Coffee" "2026-07-02").rows "7" = some (expenseRow "Coffee" "2026-07-02") := by rfl
  have hstage : stageRevert expenseEnv [expenseTool] (expenseWorld "Coffee" "2026-07-02") 1 1 expenseActions 1 =
      .ok (expenseAction expenseInverse [expenseChange "date" (.plain "2026-07-02") (.plain "2026-07-01")] (some 1), []) := by
    decide +kernel
  have h := revert_exact hwrite hload haction htool hrow hstage
  rw [if_pos rfl] at h
  rcases hconfirm : confirmWrite expenseEnv expenseTool (expenseWorld "Coffee" "2026-07-02")
    (expenseAction expenseInverse [expenseChange "date" (.plain "2026-07-02") (.plain "2026-07-01")] (some 1)) with e | s'
  · have hok : (confirmWrite expenseEnv expenseTool (expenseWorld "Coffee" "2026-07-02")
      (expenseAction expenseInverse [expenseChange "date" (.plain "2026-07-02") (.plain "2026-07-01")] (some 1))).isOk = true := by
      decide +kernel
    rw [hconfirm] at hok
    cases hok
  · obtain ⟨row', hrow', hiff⟩ := h.2 s' hconfirm
    exact ⟨s', row', rfl, hrow', (hiff.mpr expense_restorable).1⟩

/-- The description is edited after the move. The revert sees no drift, and sets the
description back too. -/
theorem revert_overwrites_edit :
    stageWrite expenseEnv expenseTool (expenseWorld "Coffee" "2026-07-01") 1 1 (expenseArgs "2026-07-02") none =
      .ok expenseMoved ∧
    (revertAction expenseEnv [expenseTool] (expenseWorld "Coffee with Ana" "2026-07-02") 1 1 expenseActions 1).bind
      (fun staged => (confirmWrite expenseEnv expenseTool (expenseWorld "Coffee with Ana" "2026-07-02") staged).map
        (fun s => (s.rows "7").map (fun row => (row "description", row "date")))) =
      .ok (some ("Coffee", "2026-07-01")) := by
  decide +kernel

end BetterDecision
