import BetterDecision.Model.Sse

/-!
# The event stream survives any chunking

Each stage of the reader is seamless, so `readSse` depends on the bytes alone
(`readSse_eq`). What the server writes for an event is one block: its blank line is the
first in it, and the block parses to the event.
-/

namespace BetterDecision

open Streams

/-! ## The stages are seamless -/

/-- Line ends are unified apart, unless the cut is inside a CRLF. -/
theorem unifyLineEnds_append {a b : List Char} (h : (∃ a', a = a' ++ ['\r']) → b.head? ≠ some '\n') :
    unifyLineEnds (a ++ b) = unifyLineEnds a ++ unifyLineEnds b := by
  fun_induction unifyLineEnds a with
  | case1 => rfl
  | case2 rest ih =>
    rw [List.cons_append, List.cons_append, unifyLineEnds, ih, List.cons_append]
    rintro ⟨a', rfl⟩
    exact h ⟨'\r' :: '\n' :: a', rfl⟩
  | case3 rest hrest ih =>
    have hb : ∀ more, rest ++ b = '\n' :: more → False := by
      intro more heq
      cases rest with
      | nil => exact h ⟨[], rfl⟩ (by rw [List.nil_append] at heq; rw [heq]; rfl)
      | cons c cs =>
        cases heq
        exact hrest cs rfl
    rw [List.cons_append, unifyLineEnds.eq_3 _ hb, ih, List.cons_append]
    rintro ⟨a', rfl⟩
    exact h ⟨'\r' :: a', rfl⟩
  | case4 c rest hc hc' ih =>
    rw [List.cons_append, unifyLineEnds.eq_4 _ _ (fun _ heq _ => hc' heq) hc', ih, List.cons_append]
    rintro ⟨a', rfl⟩
    exact h ⟨c :: a', rfl⟩

theorem getLast_of_eq_some {t : List Char} {c : Char} (h : t.getLast? = some c) : t = t.dropLast ++ [c] := by
  have hne : t ≠ [] := by
    rintro rfl
    cases h
  rw [List.getLast?_eq_some_getLast hne, Option.some_inj] at h
  rw [← h, List.dropLast_append_getLast hne]

theorem normalise_eq (carry decoded : List Char) : normalise carry decoded = normalise [] (carry ++ decoded) := rfl

/-- What follows a text is normalised apart, with the carried CR put in front of it. -/
theorem normalise_append (t ys : List Char) :
    normalise [] (t ++ ys) =
      ((normalise (normalise [] t).1 ys).1, (normalise [] t).2 ++ (normalise (normalise [] t).1 ys).2) := by
  by_cases hcr : t.getLast? = some '\r'
  · -- the CR goes with what follows: nothing that starts with it starts with LF
    have ht := getLast_of_eq_some hcr
    have hleft : normalise [] t = (['\r'], unifyLineEnds t.dropLast) := by
      rw [normalise]
      exact if_pos hcr
    have hlast : (t ++ ys).getLast? = (['\r'] ++ ys).getLast? := by
      rw [ht, List.append_assoc, List.getLast?_append_of_ne_nil _ (by simp)]
    rw [hleft]
    by_cases hend : (['\r'] ++ ys).getLast? = some '\r'
    · have hdrop : (t ++ ys).dropLast = t.dropLast ++ (['\r'] ++ ys).dropLast := by
        rw [ht, List.append_assoc, List.dropLast_append_of_ne_nil (by simp), ← ht]
      simp only [normalise, List.nil_append, hlast, hend, if_true, hdrop]
      rw [unifyLineEnds_append]
      intro _ hhead
      cases ys with
      | nil => cases hhead
      | cons y ys => cases hhead
    · simp only [normalise, List.nil_append, hlast, hend, if_false]
      rw [ht, List.append_assoc, unifyLineEnds_append (fun _ h => by cases h), ← ht]
  · have hleft : normalise [] t = ([], unifyLineEnds t) := by
      rw [normalise]
      exact if_neg hcr
    have hapart : ∀ b : List Char, unifyLineEnds (t ++ b) = unifyLineEnds t ++ unifyLineEnds b := fun b =>
      unifyLineEnds_append fun ⟨a', ha⟩ => absurd (by rw [ha, List.getLast?_concat]) hcr
    rw [hleft]
    cases ys with
    | nil => simp [normalise, hcr, unifyLineEnds]
    | cons y ys =>
      have hlast : (t ++ y :: ys).getLast? = (y :: ys).getLast? := List.getLast?_append_of_ne_nil _ (by simp)
      simp only [normalise, List.nil_append, hlast]
      split_ifs
      · rw [List.dropLast_append_of_ne_nil (by simp), hapart]
      · rw [hapart]

theorem seamless_normalise : Seamless normalise := by
  intro carry xs ys
  rw [normalise_eq carry xs, normalise_eq carry, ← List.append_assoc]
  exact normalise_append (carry ++ xs) ys

theorem cutBlock_append {buffer block rest : List Char} (h : cutBlock buffer = some (block, rest)) (ys : List Char) :
    cutBlock (buffer ++ ys) = some (block, rest ++ ys) := by
  fun_induction cutBlock buffer generalizing block with
  | case1 => cases h
  | case2 rest' =>
    cases h
    rw [List.cons_append, List.cons_append, cutBlock]
  | case3 c cs hcs ih =>
    obtain ⟨⟨block, rest⟩, hp, heq⟩ := Option.map_eq_some_iff.mp h
    cases heq
    have happ : ∀ more, c = '\n' → cs ++ ys = '\n' :: more → False := by
      intro more hc hmore
      cases cs with
      | nil => cases hp
      | cons d ds =>
        cases hmore
        exact hcs ds hc rfl
    rw [List.cons_append, cutBlock.eq_3 _ _ happ, ih hp, Option.map_some]

theorem takeBlocks_none {buffer : List Char} (h : cutBlock buffer = none) : takeBlocks buffer = ([], buffer) := by
  rw [takeBlocks]
  split
  · rfl
  · next hsome => rw [h] at hsome; cases hsome

theorem takeBlocks_some {buffer block rest : List Char} (h : cutBlock buffer = some (block, rest)) :
    takeBlocks buffer = (block :: (takeBlocks rest).1, (takeBlocks rest).2) := by
  rw [takeBlocks]
  split
  · next hnone => rw [h] at hnone; cases hnone
  · next hsome =>
    rw [h] at hsome
    cases hsome
    rfl

theorem takeBlocks_append (buffer ys : List Char) :
    takeBlocks (buffer ++ ys) =
      ((takeBlocks buffer).1 ++ (takeBlocks ((takeBlocks buffer).2 ++ ys)).1,
        (takeBlocks ((takeBlocks buffer).2 ++ ys)).2) := by
  induction buffer using takeBlocks.induct with
  | case1 buffer hnone => rw [takeBlocks_none hnone, List.nil_append]
  | case2 buffer block rest hsome _ ih =>
    rw [takeBlocks_some (cutBlock_append hsome ys), takeBlocks_some hsome, ih, List.cons_append]

/-- The buffer with a text added: the blocks that are complete, and the rest. -/
def gather (buffer text : List Char) : List Char × List (List Char) :=
  ((takeBlocks (buffer ++ text)).2, (takeBlocks (buffer ++ text)).1)

theorem seamless_gather : Seamless gather := by
  intro buffer xs ys
  simp only [gather]
  rw [← List.append_assoc, takeBlocks_append (buffer ++ xs) ys]

theorem readChunk_eq (reader : SseReader) (value : List UInt8) :
    readChunk reader value =
      let decoded := Utf8.decode reader.decoder value
      let text := normalise reader.carry decoded.2
      let blocks := gather reader.buffer text.2
      ({ decoder := decoded.1, carry := text.1, buffer := blocks.1 }, blocks.2.filterMap parseSseBlock) := rfl

theorem seamless_readChunk : Seamless readChunk := by
  intro reader xs ys
  simp only [readChunk_eq, Utf8.seamless_decode reader.decoder xs ys, seamless_normalise reader.carry _ _,
    seamless_gather reader.buffer _ _, List.filterMap_append]

theorem takeBlocks_nil : takeBlocks [] = ([], []) := takeBlocks_none rfl

/-- **The events depend on the bytes alone.** -/
theorem readSse_eq (chunks : List (List UInt8)) : readSse chunks = (readChunk SseReader.fresh chunks.flatten).2 := by
  rw [readSse, seamless_readChunk.feed_eq]
  rw [readChunk]
  dsimp only [SseReader.fresh, Utf8.decode, Utf8.Decoder.fresh, andThen, letters, normalise]
  simp [unifyLineEnds, takeBlocks_nil]

/-! ## A block of the server -/

theorem unifyLineEnds_of_no_cr {s : List Char} (h : '\r' ∉ s) : unifyLineEnds s = s := by
  induction s with
  | nil => rfl
  | cons c s ih =>
    obtain ⟨hc, hs⟩ := not_or.mp (List.mem_cons.not.mp h)
    rw [unifyLineEnds.eq_4 _ _ (fun _ heq _ => hc heq.symm) (fun heq => hc heq.symm), ih hs]

/-- A line is read up to the line end after it. -/
theorem cutBlock_line {line : List Char} (h : '\n' ∉ line) (rest : List Char) :
    cutBlock (line ++ rest) = (cutBlock rest).map (fun p => (line ++ p.1, p.2)) := by
  induction line with
  | nil => simp
  | cons c line ih =>
    obtain ⟨hc, hline⟩ := not_or.mp (List.mem_cons.not.mp h)
    rw [List.cons_append, cutBlock.eq_3 _ _ (fun _ heq _ => hc heq.symm), ih hline, Option.map_map]
    rfl

theorem cutBlock_break {c : Char} (h : c ≠ '\n') (rest : List Char) :
    cutBlock ('\n' :: c :: rest) = (cutBlock (c :: rest)).map (fun p => ('\n' :: p.1, p.2)) :=
  cutBlock.eq_3 _ _ fun _ _ heq => h (List.cons.inj heq).1

theorem splitLines_line {line : List Char} (h : '\n' ∉ line) : splitLines line = [line] := by
  induction line with
  | nil => rfl
  | cons c line ih =>
    obtain ⟨hc, hline⟩ := not_or.mp (List.mem_cons.not.mp h)
    rw [splitLines, if_neg (Ne.symm hc), ih hline]

theorem splitLines_break {line : List Char} (h : '\n' ∉ line) (rest : List Char) :
    splitLines (line ++ '\n' :: rest) = line :: splitLines rest := by
  induction line with
  | nil => rw [List.nil_append, splitLines, if_pos rfl]
  | cons c line ih =>
    obtain ⟨hc, hline⟩ := not_or.mp (List.mem_cons.not.mp h)
    rw [List.cons_append, splitLines, if_neg (Ne.symm hc), ih hline]

/-- What `json.dumps` writes is printable. -/
theorem compact_within : Json.Within compact (fun c => 0x20 ≤ c.toNat) where
  marks c hc := of_decide_eq_true
    (List.all_eq_true.mp (by decide : Json.marks.all (fun c => 0x20 ≤ c.toNat) = true) c hc)
  number n c hc := Json.numberChar_ge (Json.isNumber_chars n.property c hc)
  escape := Json.escapeAscii_ge
  itemSep c hc := by
    rw [List.mem_singleton.mp hc]
    decide
  keySep c hc := by
    rw [List.mem_singleton.mp hc]
    decide

theorem dumps_no_break (data : JsonValue) :
    '\n' ∉ Json.dumps compact data ∧ '\r' ∉ Json.dumps compact data :=
  ⟨fun h => absurd (Json.forall_dumps compact_within data _ h) (by decide),
    fun h => absurd (Json.forall_dumps compact_within data _ h) (by decide)⟩

theorem compact_lawful : Json.Lawful compact Json.readText where
  items := ⟨[], rfl, fun _ h => by cases h⟩
  keys := ⟨[], rfl, fun _ h => by cases h⟩
  strings := Json.readsBack_escapeAscii
  numbers n := ⟨Json.isNumber_ne_nil n.property, Json.isNumber_chars n.property, Json.readText_val n⟩

def eventLine (event : EventName) : List Char := eventField ++ ':' :: ' ' :: event.val

def dataLine (data : JsonValue) : List Char := dataField ++ ':' :: ' ' :: Json.dumps compact data

theorem sse_eq (event : EventName) (data : JsonValue) :
    sse event data = eventLine event ++ '\n' :: (dataLine data ++ ['\n', '\n']) := by
  simp [sse, eventLine, dataLine]

theorem eventLine_no_break (event : EventName) : '\n' ∉ eventLine event := by
  intro h
  rcases List.mem_append.mp h with h | h
  · exact absurd h (by decide)
  · rcases List.mem_cons.mp h with h | h
    · exact absurd h (by decide)
    · rcases List.mem_cons.mp h with h | h
      · exact absurd h (by decide)
      · exact event.property.1 h

theorem dataLine_no_break (data : JsonValue) : '\n' ∉ dataLine data := by
  intro h
  rcases List.mem_append.mp h with h | h
  · exact absurd h (by decide)
  · rcases List.mem_cons.mp h with h | h
    · exact absurd h (by decide)
    · rcases List.mem_cons.mp h with h | h
      · exact absurd h (by decide)
      · exact (dumps_no_break data).1 h

theorem cutBlock_blank (rest : List Char) : cutBlock ('\n' :: '\n' :: rest) = some ([], rest) := by
  rw [cutBlock]

theorem cutBlock_sse (event : EventName) (data : JsonValue) (rest : List Char) :
    cutBlock (sse event data ++ rest) = some (eventLine event ++ '\n' :: dataLine data, rest) := by
  have hdata : cutBlock (dataLine data ++ '\n' :: '\n' :: rest) = some (dataLine data, rest) := by
    rw [cutBlock_line (dataLine_no_break data), cutBlock_blank, Option.map_some, List.append_nil]
  have hbreak : cutBlock ('\n' :: (dataLine data ++ '\n' :: '\n' :: rest)) = some ('\n' :: dataLine data, rest) := by
    have h := cutBlock_break (c := 'd') (by decide) (['a', 't', 'a', ':', ' '] ++ Json.dumps compact data ++ '\n' :: '\n' :: rest)
    exact h.trans (congrArg (Option.map _) hdata)
  rw [sse_eq, List.append_assoc, List.cons_append, List.append_assoc, cutBlock_line (eventLine_no_break event)]
  exact congrArg (Option.map _) hbreak

theorem parse_sse (event : EventName) (data : JsonValue) :
    parseSseBlock (eventLine event ++ '\n' :: dataLine data) =
      some { event := event.val, data := Json.dumps compact data } := by
  rw [parseSseBlock, splitLines_break (eventLine_no_break event), splitLines_line (dataLine_no_break data)]
  have hevent : readLine (['m', 'e', 's', 's', 'a', 'g', 'e'], []) (eventLine event) = (event.val, []) := rfl
  have hdata : readLine (event.val, []) (dataLine data) = (event.val, [Json.dumps compact data]) := rfl
  rw [List.foldl_cons, hevent, List.foldl_cons, hdata]
  simp [List.intercalate]

theorem cutBlock_keepalive (rest : List Char) : cutBlock (keepalive ++ rest) = some (keepaliveComment, rest) := by
  rw [keepalive, List.append_assoc, cutBlock_line (by decide)]
  change (cutBlock ('\n' :: '\n' :: rest)).map _ = _
  rw [cutBlock_blank]
  rfl

theorem parse_keepalive : parseSseBlock keepaliveComment = none := by decide

/-! ## A whole response -/

/-- The event of what was yielded, if it is one. -/
def Yielded.sent : Yielded → Option (EventName × JsonValue)
  | .event name data => some (name, data)
  | .keepalive => none

/-- An event as it arrives. -/
def arrived (sent : EventName × JsonValue) : SseEvent :=
  { event := sent.1.val, data := Json.dumps compact sent.2 }

theorem takeBlocks_yields (yields : List Yielded) :
    (takeBlocks (yields.flatMap Yielded.text)).1.filterMap parseSseBlock =
      (yields.filterMap Yielded.sent).map arrived := by
  induction yields with
  | nil => rw [List.flatMap_nil, takeBlocks_nil]; rfl
  | cons y yields ih =>
    rw [List.flatMap_cons]
    cases y with
    | event name data =>
      rw [Yielded.text, takeBlocks_some (cutBlock_sse name data _), List.filterMap_cons_some (parse_sse name data), ih]
      rfl
    | keepalive =>
      rw [Yielded.text, takeBlocks_some (cutBlock_keepalive _), List.filterMap_cons_none parse_keepalive, ih]
      rfl

theorem yields_no_cr (yields : List Yielded) : '\r' ∉ yields.flatMap Yielded.text := by
  intro h
  obtain ⟨y, -, hy⟩ := List.mem_flatMap.mp h
  cases y with
  | event name data =>
    rw [Yielded.text, sse_eq] at hy
    simp only [eventLine, dataLine, List.mem_append, List.mem_cons] at hy
    rcases hy with (hy | hy | hy | hy) | hy | (hy | hy | hy | hy) | hy
    · exact absurd hy (by decide)
    · exact absurd hy (by decide)
    · exact absurd hy (by decide)
    · exact name.property.2 hy
    · exact absurd hy (by decide)
    · exact absurd hy (by decide)
    · exact absurd hy (by decide)
    · exact absurd hy (by decide)
    · exact (dumps_no_break data).2 hy
    · rcases hy with hy | hy | hy
      · exact absurd hy (by decide)
      · exact absurd hy (by decide)
      · cases hy
  | keepalive => exact absurd hy (by decide)

theorem yields_head (yields : List Yielded) : (yields.flatMap Yielded.text).head? ≠ some '\uFEFF' := by
  cases yields with
  | nil => decide
  | cons y yields =>
    cases y with
    | event name data => exact fun h => absurd (Option.some.inj h : 'e' = _) (by decide)
    | keepalive => exact fun h => absurd (Option.some.inj h : ':' = _) (by decide)

theorem readChunk_body (yields : List Yielded) :
    (readChunk SseReader.fresh (responseBody yields)).2 = (yields.filterMap Yielded.sent).map arrived := by
  have hnormal : normalise [] (yields.flatMap Yielded.text) = ([], yields.flatMap Yielded.text) := by
    have hcr := yields_no_cr yields
    rw [normalise, List.nil_append, if_neg (fun h => hcr (List.mem_of_getLast? h)), unifyLineEnds_of_no_cr hcr]
  rw [readChunk_eq, responseBody]
  dsimp only [SseReader.fresh]
  rw [Utf8.decode_encode (yields_head yields), hnormal]
  exact takeBlocks_yields yields

end BetterDecision
