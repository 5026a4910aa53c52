import Mathlib.Data.List.Basic
import Mathlib.Data.List.Induction
import Mathlib.Tactic.Push

/-!
# Records of fields, quoted where they must be

Comma-separated values over any alphabet, as RFC 4180 has them. The reader is strict: a quote
stands only at the ends of a field or doubled inside a quoted one, and a line break that is
not quoted is both of its marks. A field is `Written` if it is quoted or holds nothing that a
reader looks for; then every reader that looks for no more gives the records back
(`parse_write`), and what such a text shows outside quotes are the marks the writer put there
and no others (`outside_write`).
-/

namespace QuotedRecords

universe u

variable {α : Type u}

/-- What a reader looks for. More than one mark may stand between fields. -/
structure Marks (α : Type u) where
  separates : α → Bool
  quote : α
  cr : α
  lf : α
  quote_cr : quote ≠ cr
  separates_quote : separates quote = false
  separates_cr : separates cr = false

inductive Position
  | start
  | plain
  | quoted
  | closed
  | lineEnd
  deriving DecidableEq, Repr

/-- The records read, the fields of the one being read, and the field being read. -/
structure Reader (α : Type u) where
  position : Position := .start
  field : List α := []
  fields : List (List α) := []
  records : List (List (List α)) := []

variable [DecidableEq α] (m : Marks α)

namespace Reader

@[grind] def unquoted (r : Reader α) (c : α) : Option (Reader α) :=
  if m.separates c then some { r with position := .start, field := [], fields := r.fields ++ [r.field] }
  else if c = m.cr then some { r with position := .lineEnd }
  else if c = m.quote ∨ c = m.lf ∨ r.position = .closed then none
  else some { r with position := .plain, field := r.field ++ [c] }

@[grind] def step (r : Reader α) (c : α) : Option (Reader α) :=
  match r.position with
  | .start => if c = m.quote then some { r with position := .quoted } else r.unquoted m c
  | .plain => r.unquoted m c
  | .quoted =>
    if c = m.quote then some { r with position := .closed } else some { r with field := r.field ++ [c] }
  | .closed =>
    if c = m.quote then some { r with position := .quoted, field := r.field ++ [c] } else r.unquoted m c
  | .lineEnd => if c = m.lf then some { records := r.records ++ [r.fields ++ [r.field]] } else none

/-- A line break at the very end does not open another record. -/
@[grind] def finish (r : Reader α) : Option (List (List (List α))) :=
  match r.position with
  | .quoted => none
  | .lineEnd => none
  | .start => if r.fields = [] then some r.records else some (r.records ++ [r.fields ++ [r.field]])
  | .plain => some (r.records ++ [r.fields ++ [r.field]])
  | .closed => some (r.records ++ [r.fields ++ [r.field]])

end Reader

@[grind] def parse (text : List α) : Option (List (List (List α))) :=
  (text.foldlM (Reader.step m) {}).bind Reader.finish

/-- What of a text is not between quotes. -/
@[grind] def outside (quote : α) : Bool → List α → List α
  | _, [] => []
  | inside, c :: cs =>
    if c = quote then outside quote (!inside) cs
    else if inside then outside quote inside cs
    else c :: outside quote inside cs

/-! ## Writing -/

@[grind] def doubled (quote : α) (field : List α) : List α := field.flatMap fun c => if c = quote then [quote, quote] else [c]

/-- A field as it may be written: quoted, or as it is if nothing in it is `guarded`. -/
inductive Written (guarded : α → Bool) (quote : α) : List α → List α → Prop
  | plain {field : List α} (h : ∀ c ∈ field, guarded c = false) : Written guarded quote field field
  | quoted (field : List α) : Written guarded quote (quote :: (doubled quote field ++ [quote])) field

@[grind] def writeLine (comma : α) (pieces : List (List α)) : List α := List.intercalate [comma] pieces

@[grind] def write (comma cr lf : α) (lines : List (List (List α))) : List α :=
  List.intercalate [cr, lf] (lines.map (writeLine comma))

/-! ## Reading back -/

variable {m : Marks α} {guarded : α → Bool} {fields : List (List α)} {records : List (List (List α))}

/-- Whatever a reader looks for is guarded. -/
@[grind] def Guards (guarded : α → Bool) (m : Marks α) : Prop :=
  ∀ c, m.separates c = true ∨ c = m.quote ∨ c = m.cr ∨ c = m.lf → guarded c = true

/-- Behind a field that may end here. -/
structure Reader.Behind (r : Reader α) (field : List α) (fields : List (List α)) (records : List (List (List α))) :
    Prop where
  position : r.position ≠ .quoted ∧ r.position ≠ .lineEnd
  field_nil : r.position = .start → field = []
  field_eq : r.field = field
  fields_eq : r.fields = fields
  records_eq : r.records = records

/-- Where a field may end, a mark between fields ends it. -/
theorem Reader.Behind.separator {r : Reader α} {field : List α} {comma : α} (h : r.Behind field fields records)
    (hcomma : m.separates comma = true) :
    r.step m comma = some { fields := fields ++ [field], records := records } := by
  have hquote : comma ≠ m.quote := fun heq => by
    rw [heq, m.separates_quote] at hcomma
    cases hcomma
  obtain ⟨⟨hquoted, hend⟩, -, rfl, rfl, rfl⟩ := h
  rw [Reader.step]
  cases hpos : r.position with
  | start => simp [hquote, Reader.unquoted, hcomma]
  | plain => simp [Reader.unquoted, hcomma]
  | quoted => exact absurd hpos hquoted
  | closed => simp [hquote, Reader.unquoted, hcomma]
  | lineEnd => exact absurd hpos hend

/-- And a line break ends the record. -/
theorem Reader.Behind.lineBreak {r : Reader α} {field : List α} (h : r.Behind field fields records) :
    [m.cr, m.lf].foldlM (Reader.step m) r = some { records := records ++ [fields ++ [field]] } := by
  have hcr : r.step m m.cr = some { r with position := .lineEnd } := by
    obtain ⟨⟨hquoted, hend⟩, -, rfl, rfl, rfl⟩ := h
    rw [Reader.step]
    cases hpos : r.position with
    | start => simp [m.quote_cr.symm, Reader.unquoted, m.separates_cr]
    | plain => simp [Reader.unquoted, m.separates_cr]
    | quoted => exact absurd hpos hquoted
    | closed => simp [m.quote_cr.symm, Reader.unquoted, m.separates_cr]
    | lineEnd => exact absurd hpos hend
  rw [List.foldlM_cons, hcr]
  simp [Reader.step, h.field_eq, h.fields_eq, h.records_eq]

omit [DecidableEq α] in
/-- At the end of the text the last record is closed, unless nothing of it was written. -/
theorem Reader.Behind.finish {r : Reader α} {field : List α} (h : r.Behind field fields records) (hne : fields ≠ []) :
    r.finish = some (records ++ [fields ++ [field]]) := by
  obtain ⟨⟨hquoted, hend⟩, -, rfl, rfl, rfl⟩ := h
  rw [Reader.finish]
  cases hpos : r.position with
  | start => simp [hne]
  | plain => rfl
  | quoted => exact absurd hpos hquoted
  | closed => rfl
  | lineEnd => exact absurd hpos hend

/-- A field of unguarded characters is read as it is. -/
theorem read_plain (hguards : Guards guarded m) {field : List α} (h : ∀ c ∈ field, guarded c = false) :
    ∃ r, field.foldlM (Reader.step m) { fields := fields, records := records } = some r ∧
      r.Behind field fields records ∧ (r.position = .start ∨ r.position = .plain) := by
  induction field using List.reverseRecOn with
  | nil => exact ⟨_, rfl, ⟨⟨nofun, nofun⟩, fun _ => rfl, rfl, rfl, rfl⟩, .inl rfl⟩
  | append_singleton field c ih =>
    obtain ⟨r, hread, hr, hpos⟩ := ih fun d hd => h d (List.mem_append_left _ hd)
    have hfree : ¬ (m.separates c = true ∨ c = m.quote ∨ c = m.cr ∨ c = m.lf) := fun hc => by
      have hplain := h c (List.mem_append_right _ (List.mem_singleton_self c))
      rw [hguards c hc] at hplain
      cases hplain
    push Not at hfree
    obtain ⟨hsep, hquote, hcr, hlf⟩ := hfree
    have hstep : r.step m c = some { r with position := .plain, field := r.field ++ [c] } := by
      rw [Reader.step]
      rcases hpos with hpos | hpos <;> simp [hpos, Reader.unquoted, hsep, hquote, hcr, hlf]
    refine ⟨{ r with position := .plain, field := r.field ++ [c] }, ?_,
      ⟨⟨nofun, nofun⟩, nofun, by rw [hr.field_eq], hr.fields_eq, hr.records_eq⟩, .inr rfl⟩
    rw [List.foldlM_append, hread]
    change (r.step m c).bind some = _
    rw [hstep, Option.bind_some]

/-- Between quotes everything is read as it is, a quote where two stand. -/
theorem read_doubled (field before : List α) :
    (doubled m.quote field).foldlM (Reader.step m)
        { position := .quoted, field := before, fields := fields, records := records } =
      some { position := .quoted, field := before ++ field, fields := fields, records := records } := by
  induction field generalizing before with
  | nil => simp [doubled]
  | cons c field ih =>
    rw [doubled, List.flatMap_cons, List.foldlM_append, ← doubled]
    have hc : (if c = m.quote then [m.quote, m.quote] else [c]).foldlM (Reader.step m)
        { position := .quoted, field := before, fields := fields, records := records } =
        some { position := .quoted, field := before ++ [c], fields := fields, records := records } := by
      split
      · next heq => simp [Reader.step, heq]
      · next hne => simp [Reader.step, hne]
    rw [hc]
    exact (ih (before ++ [c])).trans (by rw [List.append_assoc, List.singleton_append])

theorem read_written (hguards : Guards guarded m) {piece field : List α} (h : Written guarded m.quote piece field) :
    ∃ r, piece.foldlM (Reader.step m) { fields := fields, records := records } = some r ∧
      r.Behind field fields records := by
  cases h with
  | plain h =>
    obtain ⟨r, hread, hr, -⟩ := read_plain hguards h
    exact ⟨r, hread, hr⟩
  | quoted =>
    refine ⟨{ position := .closed, field, fields, records }, ?_, ⟨nofun, nofun⟩, nofun, rfl, rfl, rfl⟩
    have hopen : ({ fields := fields, records := records } : Reader α).step m m.quote =
        some { position := .quoted, fields := fields, records := records } := by
      simp [Reader.step]
    rw [List.foldlM_cons, hopen]
    change (doubled m.quote field ++ [m.quote]).foldlM (Reader.step m) _ = _
    rw [List.foldlM_append, read_doubled]
    simp [Reader.step]

/-- A line is read as its fields, the last of them still open. -/
theorem read_line (hguards : Guards guarded m) {comma : α} (hcomma : m.separates comma = true)
    {pieces line : List (List α)} (h : List.Forall₂ (Written guarded m.quote) pieces line) (hne : pieces ≠ []) :
    ∃ r init last, (writeLine comma pieces).foldlM (Reader.step m) { fields := fields, records := records } = some r ∧
      r.Behind last init records ∧ init ++ [last] = fields ++ line := by
  induction h generalizing fields with
  | nil => exact absurd rfl hne
  | @cons piece field pieces line hfirst hrest ih =>
    obtain ⟨r, hread, hr⟩ : ∃ r, piece.foldlM (Reader.step m) { fields := fields, records := records } = some r ∧
        r.Behind field fields records := read_written hguards hfirst
    cases hrest with
    | nil =>
      refine ⟨r, fields, field, ?_, hr, rfl⟩
      rw [writeLine, List.intercalate_singleton]
      exact hread
    | cons hnext hrest =>
      obtain ⟨r', init, last, hread', hr', hline⟩ := @ih (fields ++ [field]) (List.cons_ne_nil _ _)
      refine ⟨r', init, last, ?_, hr', by rw [hline, List.append_assoc, List.singleton_append]⟩
      rw [writeLine, List.intercalate_cons_cons, List.append_assoc, List.foldlM_append, hread]
      change List.foldlM (Reader.step m) r ([comma] ++ _) = _
      rw [List.foldlM_append, List.foldlM_cons, hr.separator hcomma]
      exact hread'

/-- **What was written is read back**, whatever else than the comma the reader takes for a mark between
fields, if it is guarded. A record of one field could be an empty line. -/
theorem parse_write (hguards : Guards guarded m) {comma : α} (hcomma : m.separates comma = true)
    {lines records : List (List (List α))}
    (h : List.Forall₂ (List.Forall₂ (Written guarded m.quote)) lines records)
    (hwide : ∀ record ∈ records, 2 ≤ record.length) :
    parse m (write comma m.cr m.lf lines) = some records := by
  suffices hmore : ∀ before, ((write comma m.cr m.lf lines).foldlM (Reader.step m) { records := before }).bind
      Reader.finish = some (before ++ records) from hmore []
  induction h with
  | nil => intro before; simp [write, Reader.finish]
  | @cons pieces line lines records hfirst hrest ih =>
    intro before
    have htwo : 2 ≤ line.length := hwide line List.mem_cons_self
    have hne : pieces ≠ [] := by
      rintro rfl
      cases hfirst
      exact absurd htwo (Nat.not_succ_le_zero 1)
    obtain ⟨r, init, last, hread, hr, hline⟩ : ∃ r init last,
        (writeLine comma pieces).foldlM (Reader.step m) { records := before } = some r ∧
          r.Behind last init before ∧ init ++ [last] = [] ++ line := read_line hguards hcomma hfirst hne
    rw [List.nil_append] at hline
    have hinit : init ≠ [] := by
      rintro rfl
      rw [← hline] at htwo
      exact absurd htwo (Nat.not_succ_le_self 1)
    cases hrest with
    | nil =>
      rw [write, List.map_singleton, List.intercalate_singleton, hread]
      exact (hr.finish hinit).trans (by rw [hline])
    | cons hnext hrest =>
      have hlater := ih (fun record hrecord => hwide record (List.mem_cons_of_mem _ hrecord)) (before ++ [line])
      rw [write, List.map_cons, List.map_cons, List.intercalate_cons_cons, List.append_assoc, List.foldlM_append, hread]
      change ((([m.cr, m.lf] ++ _).foldlM (Reader.step m) r).bind _) = _
      rw [List.foldlM_append, hr.lineBreak, hline]
      rw [write, List.map_cons] at hlater
      exact hlater.trans (by rw [List.append_assoc, List.singleton_append])

/-! ## Outside the quotes -/

variable {quote : α}

theorem outside_plain {field rest : List α} (h : quote ∉ field) :
    outside quote false (field ++ rest) = field ++ outside quote false rest := by
  induction field with
  | nil => rfl
  | cons c field ih =>
    have hne := not_or.mp (List.mem_cons.not.mp h)
    rw [List.cons_append, outside, if_neg (Ne.symm hne.1), if_neg Bool.false_ne_true, ih hne.2, List.cons_append]

theorem outside_doubled (field rest : List α) :
    outside quote true (doubled quote field ++ rest) = outside quote true rest := by
  induction field with
  | nil => rfl
  | cons c field ih =>
    rw [doubled, List.flatMap_cons, ← doubled, List.append_assoc]
    split
    · next heq => simp [outside, ih]
    · next hne => simp [outside, hne, ih]

/-- What of a field is not between quotes is not guarded. -/
theorem outside_written (hquote : guarded quote = true) {piece field : List α} (h : Written guarded quote piece field)
    (rest : List α) :
    ∃ kept, outside quote false (piece ++ rest) = kept ++ outside quote false rest ∧
      ∀ c ∈ kept, guarded c = false := by
  cases h with
  | plain h =>
    refine ⟨_, outside_plain fun hmem => ?_, h⟩
    have hplain := h quote hmem
    rw [hquote] at hplain
    cases hplain
  | quoted =>
    refine ⟨[], ?_, nofun⟩
    rw [List.cons_append, outside, if_pos rfl, List.append_assoc, Bool.not_false, outside_doubled]
    simp [outside]

theorem outside_line (hquote : guarded quote = true) {comma : α} (hcomma : comma ≠ quote)
    {pieces line : List (List α)} (h : List.Forall₂ (Written guarded quote) pieces line) (rest : List α) :
    ∃ kept, outside quote false (writeLine comma pieces ++ rest) = kept ++ outside quote false rest ∧
      ∀ c ∈ kept, c = comma ∨ guarded c = false := by
  induction h with
  | nil => exact ⟨[], rfl, nofun⟩
  | @cons piece field pieces line hfirst hrest ih =>
    cases hrest with
    | nil =>
      obtain ⟨kept, hkept, hfree⟩ := outside_written hquote hfirst rest
      exact ⟨kept, by rw [writeLine, List.intercalate_singleton, hkept], fun c hc => .inr (hfree c hc)⟩
    | @cons next _ pieces line hnext hrest =>
      obtain ⟨later, hlater, hfreeLater⟩ := ih
      obtain ⟨kept, hkept, hfree⟩ := outside_written hquote hfirst ([comma] ++ (writeLine comma (next :: pieces) ++ rest))
      refine ⟨kept ++ comma :: later, ?_, ?_⟩
      · rw [writeLine, List.intercalate_cons_cons, List.append_assoc, List.append_assoc, ← writeLine, hkept,
          outside_plain (fun hmem => hcomma (List.mem_singleton.mp hmem).symm), hlater, List.append_assoc]
        rfl
      · intro c hc
        rcases List.mem_append.mp hc with hc | hc
        · exact .inr (hfree c hc)
        · rcases List.mem_cons.mp hc with rfl | hc
          · exact .inl rfl
          · exact hfreeLater c hc

/-- **Outside the quotes stand only the marks of the writer**, and what is not guarded. -/
theorem outside_write (hquote : guarded quote = true) {comma cr lf : α} (hcomma : comma ≠ quote) (hcr : cr ≠ quote)
    (hlf : lf ≠ quote) {lines records : List (List (List α))}
    (h : List.Forall₂ (List.Forall₂ (Written guarded quote)) lines records) :
    ∀ c ∈ outside quote false (write comma cr lf lines), c = comma ∨ c = cr ∨ c = lf ∨ guarded c = false := by
  induction h with
  | nil => nofun
  | @cons pieces line lines records hfirst hrest ih =>
    intro c hc
    cases hrest with
    | nil =>
      obtain ⟨kept, hkept, hfree⟩ := outside_line hquote hcomma hfirst []
      rw [write, List.map_singleton, List.intercalate_singleton, ← List.append_nil (writeLine comma pieces), hkept,
        outside, List.append_nil] at hc
      exact (hfree c hc).imp_right fun hc => .inr (.inr hc)
    | @cons next _ lines records hnext hrest =>
      obtain ⟨kept, hkept, hfree⟩ :=
        outside_line hquote hcomma hfirst ([cr, lf] ++ write comma cr lf (next :: lines))
      have hbreak : quote ∉ [cr, lf] := by
        intro hmem
        rcases List.mem_cons.mp hmem with heq | hmem
        · exact hcr heq.symm
        · exact hlf (List.mem_singleton.mp hmem).symm
      rw [write, List.map_cons, List.map_cons, List.intercalate_cons_cons, ← List.map_cons, ← write, List.append_assoc,
        hkept, outside_plain hbreak] at hc
      rcases List.mem_append.mp hc with hc | hc
      · exact (hfree c hc).imp_right fun hc => .inr (.inr hc)
      · rcases List.mem_append.mp hc with hc | hc
        · rcases List.mem_cons.mp hc with rfl | hc
          · exact .inr (.inl rfl)
          · exact .inr (.inr (.inl (List.mem_singleton.mp hc)))
        · exact ih c hc

end QuotedRecords
