import BetterDecision.Model.CappedHttp

/-!
# Capped lines do not show the chunks

The reader is followed by the cut of the bytes it has taken, letter by letter: it has yielded
the closed lines, and empty ones, and its buffer is the line under way. So the chunks leave no
trace but empty lines. The line under way only gets longer, so a reader that raises for it
was on a line that is too long in the whole.
-/

namespace BetterDecision

open Lines

/-! ## Whole bodies -/

theorem readInto_eq (limit : Nat) (buf : Bytes) (h : buf.length ≤ limit) (chunks : List Bytes) :
    readInto limit buf chunks =
      if (buf ++ chunks.flatten).length ≤ limit then some (buf ++ chunks.flatten) else none := by
  induction chunks generalizing buf with
  | nil =>
    rw [List.flatten_nil, List.append_nil, if_pos h]
    rfl
  | cons chunk chunks ih =>
    rw [readInto, List.flatten_cons, ← List.append_assoc]
    split
    · rename_i hlong
      have hle : (buf ++ chunk).length ≤ (buf ++ chunk ++ chunks.flatten).length :=
        (List.prefix_append _ _).length_le
      rw [if_neg (by omega)]
    · rename_i hshort
      exact ih _ (not_lt.mp hshort)

/-- **A body is read whole or not at all**, whatever its chunks. -/
theorem readCapped_eq (resp : HttpResponse) (limit : Nat) :
    readCapped resp limit = if resp.chunks.flatten.length ≤ limit then some resp.chunks.flatten else none :=
  readInto_eq limit [] (Nat.zero_le _) resp.chunks

/-! ## Lines -/

/-- The reader is where the cut is. -/
structure Reads (r : LineReader) (c : Cut UInt8) : Prop where
  pending : r.pending = c.pending
  /-- What was yielded are the closed lines, and empty ones. -/
  lines : r.lines.filter (· ≠ []) = c.closed.map Utf8.decodeReplace

/-- No line so far is over the limit. -/
def CutFits (lineLimit : Nat) (c : Cut UInt8) : Prop := ∀ line ∈ c.lines, line.length ≤ lineLimit

/-- Lines that are not empty are decoded to such. -/
theorem map_decode_filter (lines : List Bytes) :
    (lines.filter (· ≠ [])).map Utf8.decodeReplace = (lines.map Utf8.decodeReplace).filter (· ≠ []) := by
  rw [List.filter_map]
  congr 1
  refine List.filter_congr fun line _ => ?_
  simp [Utf8.decodeReplace_eq_nil]

section Reader

variable {r : LineReader} {c : Cut UInt8} {lineLimit totalLimit : Nat}

theorem Reads.close (h : Reads r c) : Reads r.yieldPending c.close where
  pending := rfl
  lines := by
    have hlast := map_decode_filter [c.pending]
    rw [List.map_singleton] at hlast
    rw [LineReader.yieldPending, List.filter_append, h.lines, h.pending, Cut.close, Cut.lines, List.map_append, hlast]

theorem Reads.put (h : Reads r c) (part : Bytes) : Reads { r with pending := r.pending ++ part } (c.put part) where
  pending := congrArg (· ++ part) h.pending
  lines := h.lines

theorem Reads.next (h : Reads r c) (later : Bool) (part : Bytes) : Reads (r.take later part) (c.next later part) := by
  cases later with
  | false => exact h.put part
  | true => exact h.close.put part

theorem CutFits.next (h : CutFits lineLimit c) (later : Bool) {part : Bytes}
    (hpart : (c.next later part).pending.length ≤ lineLimit) : CutFits lineLimit (c.next later part) := by
  intro line hline
  rcases List.mem_append.mp hline with hclosed | hlast
  · cases later with
    | false => exact h line (List.mem_append_left _ hclosed)
    | true => exact h line hclosed
  · obtain rfl := List.mem_singleton.mp (List.mem_of_mem_filter hlast)
    exact hpart

/-- **The parts of a chunk**: the reader goes with the cut, or raises on a line that is too long. -/
theorem takeParts_spec (hreads : Reads r c) (hfits : CutFits lineLimit c) (later : Bool) (parts : List Bytes) :
    (∀ r', takeParts lineLimit r later parts = .ok r' →
      r'.total = r.total ∧ Reads r' (c.take later parts) ∧ CutFits lineLimit (c.take later parts)) ∧
    ∀ r', takeParts lineLimit r later parts = .error r' →
      ∃ c', Reads r' c' ∧ c'.Before (c.take later parts) ∧ lineLimit < c'.pending.length := by
  induction parts generalizing r c later with
  | nil =>
    refine ⟨fun r' h => ?_, fun r' h => nomatch h⟩
    obtain rfl := Except.ok.inj h
    exact ⟨rfl, hreads, hfits⟩
  | cons part parts ih =>
    have hpart := hreads.next later part
    rw [takeParts, Cut.take]
    split
    · rename_i hlong
      refine ⟨fun r' h => (nomatch h), fun r' h => ?_⟩
      obtain rfl := Except.error.inj h
      exact ⟨_, hpart, Cut.Before.take true _ parts, hpart.pending ▸ hlong⟩
    · rename_i hshort
      have hnow := hfits.next later (hpart.pending ▸ not_lt.mp hshort)
      have htotal : (r.take later part).total = r.total := by cases later <;> rfl
      obtain ⟨hok, herror⟩ := ih hpart hnow true
      exact ⟨fun r' h => ⟨(hok r' h).1.trans htotal, (hok r' h).2⟩, herror⟩

/-- What was read so far, and no limit passed. -/
structure ReadTo (lineLimit totalLimit : Nat) (r : LineReader) (bytes : Bytes) : Prop where
  reads : Reads r (Cut.read 13 10 {} bytes)
  fits : CutFits lineLimit (Cut.read 13 10 {} bytes)
  total : r.total = bytes.length
  capped : bytes.length ≤ totalLimit

theorem takeChunk_spec {bytes : Bytes} (h : ReadTo lineLimit totalLimit r bytes) (chunk : Bytes) :
    (∀ r', takeChunk lineLimit totalLimit r chunk = .ok r' → ReadTo lineLimit totalLimit r' (bytes ++ chunk)) ∧
    ∀ r', takeChunk lineLimit totalLimit r chunk = .error r' →
      ∃ c', Reads r' c' ∧ c'.Before (Cut.read 13 10 {} (bytes ++ chunk)) ∧
        (totalLimit < (bytes ++ chunk).length ∨ lineLimit < c'.pending.length) := by
  have htotal : r.total + chunk.length = (bytes ++ chunk).length := by rw [h.total, List.length_append]
  have hreads : Reads { r with total := r.total + chunk.length } (Cut.read 13 10 {} bytes) := ⟨h.reads.pending, h.reads.lines⟩
  have htake : Cut.read 13 10 {} (bytes ++ chunk) = (Cut.read 13 10 {} bytes).take false (splitBreaks chunk) := by
    rw [Cut.read_append, splitBreaks, Cut.take_split]
  rw [takeChunk, htake]
  dsimp only
  split
  · rename_i hover
    refine ⟨fun r' hr => (nomatch hr), fun r' hr => ?_⟩
    obtain rfl := Except.error.inj hr
    exact ⟨_, hreads, Cut.Before.take false _ _, .inl (htotal ▸ hover)⟩
  · rename_i hunder
    obtain ⟨hok, herror⟩ := takeParts_spec hreads h.fits false (splitBreaks chunk)
    refine ⟨fun r' hr => ?_, fun r' hr => ?_⟩
    · obtain ⟨ht, hr', hf⟩ := hok r' hr
      exact ⟨htake ▸ hr', htake ▸ hf, ht.trans htotal, htotal ▸ not_lt.mp hunder⟩
    · obtain ⟨c', hc', hbefore, hlong⟩ := herror r' hr
      exact ⟨c', hc', hbefore, .inr hlong⟩

theorem takeChunks_spec {bytes : Bytes} (h : ReadTo lineLimit totalLimit r bytes) (chunks : List Bytes) :
    (∀ r', chunks.foldlM (takeChunk lineLimit totalLimit) r = .ok r' →
      ReadTo lineLimit totalLimit r' (bytes ++ chunks.flatten)) ∧
    ∀ r', chunks.foldlM (takeChunk lineLimit totalLimit) r = .error r' →
      ∃ c', Reads r' c' ∧ c'.Before (Cut.read 13 10 {} (bytes ++ chunks.flatten)) ∧
        (totalLimit < (bytes ++ chunks.flatten).length ∨ lineLimit < c'.pending.length) := by
  induction chunks generalizing r bytes with
  | nil =>
    refine ⟨fun r' hr => ?_, fun r' hr => nomatch hr⟩
    obtain rfl := Except.ok.inj hr
    rwa [List.flatten_nil, List.append_nil]
  | cons chunk chunks ih =>
    obtain ⟨hok, herror⟩ := takeChunk_spec h chunk
    rw [List.foldlM_cons, List.flatten_cons, ← List.append_assoc]
    refine ⟨fun r' hr => ?_, fun r' hr => ?_⟩
    · obtain ⟨mid, hmid, hr⟩ := bind_eq_ok.mp hr
      exact (ih (hok mid hmid)).1 r' hr
    · rcases bind_eq_error.mp hr with hnow | ⟨mid, hmid, hr⟩
      · obtain ⟨c', hc', hbefore, hwhy⟩ := herror r' hnow
        refine ⟨c', hc', ?_, hwhy.imp_left fun hover => hover.trans_le (List.prefix_append _ _).length_le⟩
        rw [Cut.read_append]
        exact hbefore.trans (Cut.Before.read 13 10 _ _)
      · exact (ih (hok mid hmid)).2 r' hr

end Reader

/-! ## What is held -/

/-- The bytes that are undelivered at some moment while a chunk is in hand: those of the line
under way, and those of the parts of the chunk that were not taken yet. -/
inductive InHand (lineLimit totalLimit : Nat) (chunks : List Bytes) : Bytes → Nat → Prop
  | moment {before after : List Bytes} {chunk : Bytes} {r r' : LineReader} {front back : List Bytes} :
      chunks = before ++ chunk :: after →
      before.foldlM (takeChunk lineLimit totalLimit) {} = .ok r →
      splitBreaks chunk = front ++ back →
      (takeParts lineLimit { r with total := r.total + chunk.length } false front = .ok r' ∨
        takeParts lineLimit { r with total := r.total + chunk.length } false front = .error r') →
      InHand lineLimit totalLimit chunks chunk (r'.pending.length + back.flatten.length)

theorem pending_takeParts_le {lineLimit : Nat} {r r' : LineReader} {later : Bool} {parts : List Bytes}
    (h : takeParts lineLimit r later parts = .ok r' ∨ takeParts lineLimit r later parts = .error r') :
    r'.pending.length ≤ r.pending.length + parts.flatten.length := by
  induction parts generalizing r later with
  | nil =>
    rcases h with h | h
    · obtain rfl := Except.ok.inj h
      exact Nat.le_add_right _ _
    · cases h
  | cons part parts ih =>
    have hpart : (r.take later part).pending.length ≤ r.pending.length + part.length := by
      cases later with
      | false => exact List.length_append.le
      | true => exact Nat.le_add_left _ _
    rw [takeParts] at h
    rw [List.flatten_cons, List.length_append]
    split at h
    · rcases h with h | h
      · cases h
      · obtain rfl := Except.error.inj h
        omega
    · have hrest := ih h
      omega

theorem inHand_le {lineLimit totalLimit : Nat} {chunks : List Bytes} {chunk : Bytes} {held : Nat}
    (h : InHand lineLimit totalLimit chunks chunk held) : held ≤ lineLimit + chunk.length := by
  cases h with
  | @moment before after chunk r r' front back hchunks hbefore hparts hfront =>
    have hstart : ReadTo lineLimit totalLimit {} [] := ⟨⟨rfl, rfl⟩, nofun, rfl, Nat.zero_le _⟩
    have hr := (takeChunks_spec hstart before).1 r hbefore
    have hpending : r.pending.length ≤ lineLimit := by
      by_cases hnil : r.pending = []
      · rw [hnil]
        exact Nat.zero_le _
      · refine hr.fits _ (List.mem_append_right _ (List.mem_filter.mpr ⟨?_, decide_eq_true hnil⟩))
        exact List.mem_singleton.mpr hr.reads.pending
    have hheld := pending_takeParts_le hfront
    have hchunk := length_flatten_split_le 13 10 chunk
    rw [← splitBreaks, hparts, List.flatten_append, List.length_append] at hchunk
    dsimp only at hheld
    omega

/-- **The capped reader of lines does not depend on the chunks.** Within both limits it yields
the lines of the whole, but for empty ones; past one of them it raises, after first lines of
the whole. At no time does it hold more than a line and a chunk. -/
theorem capped_lines (resp : HttpResponse) (maxLineBytes maxBytes : Option Nat) (h : resp.isIdentity = true) :
    let lineLimit := maxLineBytes.getD maxStreamLineBytes
    let totalLimit := maxBytes.getD maxStreamBytes
    let bytes := resp.chunks.flatten
    let lines := ((splitBreaks bytes).map Utf8.decodeReplace).filter (· ≠ [])
    let result := aiterLines resp maxLineBytes maxBytes
    let within := bytes.length ≤ totalLimit ∧ ∀ line ∈ splitBreaks bytes, line.length ≤ lineLimit
    (within → result.1.filter (· ≠ []) = lines ∧ result.2 = none) ∧
    (¬ within → result.1.filter (· ≠ []) <+: lines ∧ result.2 = some responseTooLarge) ∧
    ∀ chunk held, InHand lineLimit totalLimit resp.chunks chunk held → held ≤ lineLimit + chunk.length := by
  intro lineLimit totalLimit bytes lines result within
  have hstart : ReadTo lineLimit totalLimit {} [] := ⟨⟨rfl, rfl⟩, nofun, rfl, Nat.zero_le _⟩
  obtain ⟨hok, herror⟩ := takeChunks_spec hstart resp.chunks
  rw [List.nil_append] at hok herror
  have hlines : (Cut.read 13 10 {} bytes).lines.map Utf8.decodeReplace = lines := by
    rw [Cut.lines_read, map_decode_filter]
    rfl
  have hresult : result = _ := if_pos h
  rcases hread : resp.chunks.foldlM (takeChunk lineLimit totalLimit) {} with r | r
  · rw [hread] at hresult
    obtain ⟨c', hreads, hbefore, hwhy⟩ := herror r hread
    have hyielded : result.1.filter (· ≠ []) <+: lines := by
      rw [hresult, hreads.lines, ← hlines]
      exact hbefore.lines.map _
    have hnot : ¬ within := by
      rintro ⟨htotal, hline⟩
      rcases hwhy with hover | hlong
      · exact absurd htotal (not_le.mpr hover)
      · obtain ⟨line, hmem, hlen⟩ := hbefore.exists_longer hlong
        rw [Cut.lines_read] at hmem
        exact absurd (hline line (List.mem_of_mem_filter hmem)) (not_le.mpr hlen)
    exact ⟨fun hin => absurd hin hnot, fun _ => ⟨hyielded, by rw [hresult]⟩, fun chunk held => inHand_le⟩
  · rw [hread] at hresult
    have hall := hok r hread
    have hwithin : within := by
      refine ⟨hall.capped, fun line hline => ?_⟩
      by_cases hnil : line = []
      · rw [hnil]
        exact Nat.zero_le _
      · refine hall.fits line ?_
        rw [Cut.lines_read]
        exact List.mem_filter.mpr ⟨hline, decide_eq_true hnil⟩
    have hyielded : result.1.filter (· ≠ []) = lines := by
      rw [hresult, ← hlines]
      by_cases hnil : r.pending = []
      · have hclosed : (Cut.read 13 10 {} bytes).lines = (Cut.read 13 10 {} bytes).closed := by
          rw [Cut.lines, ← hall.reads.pending, hnil]
          exact List.append_nil _
        rw [hclosed, ← hall.reads.lines]
        exact congrArg (fun r : LineReader => r.lines.filter (· ≠ [])) (if_pos hnil)
      · refine Eq.trans ?_ hall.reads.close.lines
        exact congrArg (fun r : LineReader => r.lines.filter (· ≠ [])) (if_neg hnil)
    exact ⟨fun _ => ⟨hyielded, by rw [hresult]⟩, fun hnot => absurd hwithin hnot, fun chunk held => inHand_le⟩

/-- A line break and a letter that lie across the chunks. -/
def splitResponse : HttpResponse where
  chunks := [[97, 13], [10, 195], [169, 10, 98]]

theorem capped_lines_split :
    (aiterLines splitResponse (some 2) (some 7)).1.filter (· ≠ []) = [['a'], ['é'], ['b']] ∧
      (aiterLines splitResponse (some 1) (some 7)).2 = some responseTooLarge := by
  constructor
  · have hlines := ((capped_lines splitResponse (some 2) (some 7) (by decide +kernel)).1 (by decide +kernel)).1
    exact hlines.trans (by decide +kernel)
  · exact ((capped_lines splitResponse (some 1) (some 7) (by decide +kernel)).2.1 (by decide +kernel)).2

end BetterDecision
