import Mathlib.Data.Char
import Mathlib.Data.List.DropRight

/-!
# Locations on a site

What the URL standard says of a text that is resolved against a URL of a site: a leading
slash keeps the origin, two of them name another, and what follows is split into a path
without dot segments, a query and a fragment, each percent-encoded.

A location that has been parsed is settled: its segments are encoded and none is a dot
segment. `parse_text` is the round trip: the text of a settled location parses to it, on
any origin, as long as it does not start with two slashes.

Hosts and texts that do not start with a slash are left to the parser's other half, a
parameter.
-/

namespace Urls

/-! ## Percent-encoding -/

@[grind] def upperHex (n : Nat) : Char := if n < 10 then Char.ofNat (48 + n) else Char.ofNat (55 + n)

@[grind] def percentByte (b : UInt8) : List Char := ['%', upperHex (b.toNat / 16), upperHex (b.toNat % 16)]

@[grind] def percentEncode (set : Char → Bool) (c : Char) : List Char :=
  if set c then (String.utf8EncodeChar c).flatMap percentByte else [c]

@[grind] def encodeText (set : Char → Bool) (text : List Char) : List Char := text.flatMap (percentEncode set)

@[grind] def c0ControlSet (c : Char) : Bool := c < ' ' || '~' < c

@[grind] def fragmentSet (c : Char) : Bool := c0ControlSet c || [' ', '"', '<', '>', '\x60'].contains c

@[grind] def querySet (c : Char) : Bool := c0ControlSet c || [' ', '"', '#', '<', '>'].contains c

@[grind] def specialQuerySet (c : Char) : Bool := querySet c || c == '\x27'

@[grind] def pathSet (c : Char) : Bool := querySet c || ['?', '^', '\x60', '\x7b', '\x7d'].contains c

/-- A set that leaves alone what encoding writes. -/
structure Stable (set : Char → Bool) : Prop where
  percent : set '%' = false
  digits : ∀ n < 16, set (upperHex n) = false

theorem fragmentSet_stable : Stable fragmentSet := ⟨by decide, by decide⟩

theorem specialQuerySet_stable : Stable specialQuerySet := ⟨by decide, by decide⟩

theorem pathSet_stable : Stable pathSet := ⟨by decide, by decide⟩

/-- What encoding writes, apart from what it copies. -/
@[grind] def Written (c : Char) : Prop := c = '%' ∨ ∃ n < 16, c = upperHex n

theorem written_of_mem_percentByte {b : UInt8} {c : Char} (h : c ∈ percentByte b) : Written c := by
  have hb := b.toNat_lt
  simp only [percentByte, List.mem_cons, List.not_mem_nil, or_false] at h
  rcases h with rfl | rfl | rfl
  · exact Or.inl rfl
  · exact Or.inr ⟨_, by omega, rfl⟩
  · exact Or.inr ⟨_, Nat.mod_lt _ (by decide), rfl⟩

theorem mem_percentEncode {set : Char → Bool} {c d : Char} (h : d ∈ percentEncode set c) :
    Written d ∨ d = c ∧ set c = false := by
  unfold percentEncode at h
  split at h
  · obtain ⟨b, -, hd⟩ := List.mem_flatMap.mp h
    exact Or.inl (written_of_mem_percentByte hd)
  · exact Or.inr ⟨List.mem_singleton.mp h, eq_false_of_ne_true ‹_›⟩

theorem mem_encodeText {set : Char → Bool} {text : List Char} {d : Char} (h : d ∈ encodeText set text) :
    Written d ∨ d ∈ text ∧ set d = false := by
  obtain ⟨c, hc, hd⟩ := List.mem_flatMap.mp h
  rcases mem_percentEncode hd with hd | ⟨rfl, hset⟩
  · exact Or.inl hd
  · exact Or.inr ⟨hc, hset⟩

theorem Stable.written {set : Char → Bool} (h : Stable set) {c : Char} (hc : Written c) : set c = false := by
  rcases hc with rfl | ⟨n, hn, rfl⟩
  · exact h.percent
  · exact h.digits n hn

theorem Stable.encoded {set : Char → Bool} (h : Stable set) {text : List Char} {d : Char}
    (hd : d ∈ encodeText set text) : set d = false := by
  rcases mem_encodeText hd with hd | hd
  · exact h.written hd
  · exact hd.2

theorem encodeText_of_free {set : Char → Bool} {text : List Char} (h : ∀ c ∈ text, set c = false) :
    encodeText set text = text := by
  induction text with
  | nil => rfl
  | cons c text ih =>
    have hc : percentEncode set c = [c] := if_neg (ne_true_of_eq_false (h c List.mem_cons_self))
    have hrest := ih fun d hd => h d (List.mem_cons_of_mem _ hd)
    unfold encodeText at hrest ⊢
    rw [List.flatMap_cons, hc, hrest]
    rfl

/-! ## Paths -/

@[grind] def isSingleDot (segment : List Char) : Bool :=
  [['.'], ['%', '2', 'e']].contains (segment.map Char.toLower)

@[grind] def isDoubleDot (segment : List Char) : Bool :=
  [['.', '.'], ['.', '%', '2', 'e'], ['%', '2', 'e', '.'], ['%', '2', 'e', '%', '2', 'e']].contains
    (segment.map Char.toLower)

@[grind] def isSlash (c : Char) : Bool := c == '/' || c == '\\'

/-- A segment is over, with a slash or without. -/
@[grind] def endSegment (path : List (List Char)) (buffer : List Char) (slash : Bool) : List (List Char) :=
  if isDoubleDot buffer then if slash then path.dropLast else path.dropLast ++ [[]]
  else if isSingleDot buffer then if slash then path else path ++ [[]]
  else path ++ [buffer]

/-- The path, and what is left after it. -/
@[grind] def pathState : List Char → List (List Char) → List Char → List (List Char) × List Char
  | [], path, buffer => (endSegment path buffer false, [])
  | c :: rest, path, buffer =>
    if isSlash c then pathState rest (endSegment path buffer true) []
    else if c = '?' ∨ c = '#' then (endSegment path buffer false, c :: rest)
    else pathState rest path (buffer ++ percentEncode pathSet c)

structure Location where
  path : List (List Char)
  query : Option (List Char) := none
  fragment : Option (List Char) := none

/-- The query and the fragment, from the question mark or the hash on. -/
@[grind] def queryState (path : List (List Char)) : List Char → Location
  | '?' :: rest =>
    { path
      query := some (encodeText specialQuerySet (rest.takeWhile (· != '#')))
      fragment := match rest.dropWhile (· != '#') with
        | [] => none
        | _ :: fragment => some (encodeText fragmentSet fragment) }
  | '#' :: fragment => { path, fragment := some (encodeText fragmentSet fragment) }
  | _ => { path }

@[grind] def parsePath (text : List Char) : Location :=
  queryState (pathState text [] []).1 (pathState text [] []).2

/-! ### The text of a location -/

@[grind] def Location.pathname (l : Location) : List Char := l.path.flatMap ('/' :: ·)

/-- A query or a fragment with its mark, or nothing for an empty one. -/
@[grind] def marked (mark : Char) : Option (List Char) → List Char
  | none | some [] => []
  | some text => mark :: text

@[grind] def Location.search (l : Location) : List Char := marked '?' l.query

@[grind] def Location.hash (l : Location) : List Char := marked '#' l.fragment

@[grind] def Location.text (l : Location) : List Char := l.pathname ++ l.search ++ l.hash

/-! ### Settled locations -/

/-- A segment that is read as it stands. -/
structure Segment (segment : List Char) : Prop where
  encoded : ∀ c ∈ segment, pathSet c = false
  whole : ∀ c ∈ segment, isSlash c = false
  single : isSingleDot segment = false
  double : isDoubleDot segment = false

theorem segment_nil : Segment [] where
  encoded _ h := nomatch h
  whole _ h := nomatch h
  single := rfl
  double := rfl

structure Settled (l : Location) : Prop where
  path : l.path ≠ []
  segments : ∀ segment ∈ l.path, Segment segment
  query : ∀ q ∈ l.query, ∀ c ∈ q, specialQuerySet c = false
  fragment : ∀ f ∈ l.fragment, ∀ c ∈ f, fragmentSet c = false

/-- What a path may be made of while it is read. -/
@[grind] def Readable (buffer : List Char) : Prop := ∀ c ∈ buffer, pathSet c = false ∧ isSlash c = false

theorem endSegment_ne_nil {path : List (List Char)} {buffer : List Char} : endSegment path buffer false ≠ [] := by
  unfold endSegment
  split
  · exact List.append_ne_nil_of_right_ne_nil _ (List.cons_ne_nil _ _)
  · split <;> exact List.append_ne_nil_of_right_ne_nil _ (List.cons_ne_nil _ _)

theorem endSegment_segments {path : List (List Char)} {buffer : List Char} {slash : Bool}
    (hpath : ∀ segment ∈ path, Segment segment) (hbuffer : Readable buffer) :
    ∀ segment ∈ endSegment path buffer slash, Segment segment := by
  have hdropped : ∀ segment ∈ path.dropLast, Segment segment := fun s hs => hpath s (List.dropLast_subset _ hs)
  have hadd : ∀ {before : List (List Char)} {last : List Char}, (∀ s ∈ before, Segment s) → Segment last →
      ∀ s ∈ before ++ [last], Segment s := fun hbefore hlast s hs => by
    rcases List.mem_append.mp hs with hs | hs
    · exact hbefore s hs
    · exact List.mem_singleton.mp hs ▸ hlast
  unfold endSegment
  by_cases hdouble : isDoubleDot buffer = true
  · rw [if_pos hdouble]
    split
    · exact hdropped
    · exact hadd hdropped segment_nil
  · rw [if_neg hdouble]
    by_cases hsingle : isSingleDot buffer = true
    · rw [if_pos hsingle]
      split
      · exact hpath
      · exact hadd hpath segment_nil
    · rw [if_neg hsingle]
      exact hadd hpath ⟨fun c hc => (hbuffer c hc).1, fun c hc => (hbuffer c hc).2,
        eq_false_of_ne_true hsingle, eq_false_of_ne_true hdouble⟩

theorem written_not_slash {c : Char} (h : Written c) : isSlash c = false := by
  rcases h with rfl | ⟨n, hn, rfl⟩
  · rfl
  · revert n
    decide

theorem readable_percentEncode {c : Char} (hc : isSlash c = false) : Readable (percentEncode pathSet c) := by
  intro d hd
  rcases mem_percentEncode hd with hd | ⟨rfl, hset⟩
  · exact ⟨pathSet_stable.written hd, written_not_slash hd⟩
  · exact ⟨hset, hc⟩

/-- The path that is read is settled, and it ends at a question mark, at a hash or with the text. -/
theorem pathState_settled (text : List Char) {path : List (List Char)} {buffer : List Char}
    (hpath : ∀ segment ∈ path, Segment segment) (hbuffer : Readable buffer) :
    (pathState text path buffer).1 ≠ [] ∧ (∀ segment ∈ (pathState text path buffer).1, Segment segment) ∧
      (pathState text path buffer).2 <:+ text := by
  induction text generalizing path buffer with
  | nil => exact ⟨endSegment_ne_nil, endSegment_segments hpath hbuffer, List.suffix_refl _⟩
  | cons c rest ih =>
    unfold pathState
    by_cases hslash : isSlash c = true
    · rw [if_pos hslash]
      obtain ⟨hne, hsegments, hrest⟩ :=
        @ih (endSegment path buffer true) [] (endSegment_segments hpath hbuffer) (fun _ h => nomatch h)
      exact ⟨hne, hsegments, hrest.trans (List.suffix_cons c rest)⟩
    · rw [if_neg hslash]
      split
      · exact ⟨endSegment_ne_nil, endSegment_segments hpath hbuffer, List.suffix_refl _⟩
      · have hmore : Readable (buffer ++ percentEncode pathSet c) := fun d hd => by
          rcases List.mem_append.mp hd with hd | hd
          · exact hbuffer d hd
          · exact readable_percentEncode (eq_false_of_ne_true hslash) d hd
        obtain ⟨hne, hsegments, hrest⟩ := ih hpath hmore
        exact ⟨hne, hsegments, hrest.trans (List.suffix_cons c rest)⟩

/-- **What is parsed is settled.** -/
theorem parsePath_settled (text : List Char) : Settled (parsePath text) := by
  obtain ⟨hne, hsegments, -⟩ := @pathState_settled text [] [] (fun _ h => by cases h)
    (fun _ h => by cases h)
  unfold parsePath
  generalize (pathState text [] []).1 = path at hne hsegments ⊢
  generalize (pathState text [] []).2 = rest
  unfold queryState
  split
  · rename_i rest
    refine ⟨hne, hsegments, fun q hq c hc => ?_, fun f hf c hc => ?_⟩
    · obtain rfl := Option.some.inj hq
      exact specialQuerySet_stable.encoded hc
    · dsimp only at hf
      split at hf
      · cases hf
      · obtain rfl := Option.some.inj hf
        exact fragmentSet_stable.encoded hc
  · refine ⟨hne, hsegments, fun q hq => (by cases hq), fun f hf c hc => ?_⟩
    obtain rfl := Option.some.inj hf
    exact fragmentSet_stable.encoded hc
  · exact ⟨hne, hsegments, fun q hq => (by cases hq), fun f hf => (by cases hf)⟩

/-! ### Reading a settled location back -/

theorem pathSet_query {c : Char} (h : pathSet c = false) : c ≠ '?' ∧ c ≠ '#' := by
  constructor <;> rintro rfl <;> cases h

theorem pathState_chunk {chunk : List Char} (hchunk : Readable chunk) (rest : List Char) (path : List (List Char))
    (buffer : List Char) : pathState (chunk ++ rest) path buffer = pathState rest path (buffer ++ chunk) := by
  induction chunk generalizing buffer with
  | nil => rw [List.nil_append, List.append_nil]
  | cons c chunk ih =>
    obtain ⟨hset, hslash⟩ := hchunk c List.mem_cons_self
    obtain ⟨hquestion, hhash⟩ := pathSet_query hset
    have hcopied : percentEncode pathSet c = [c] := if_neg (ne_true_of_eq_false hset)
    rw [List.cons_append, pathState, if_neg (ne_true_of_eq_false hslash), if_neg fun h => h.elim hquestion hhash,
      hcopied, ih fun d hd => hchunk d (List.mem_cons_of_mem _ hd), List.append_assoc]
    rfl

theorem Segment.readable {segment : List Char} (h : Segment segment) : Readable segment :=
  fun c hc => ⟨h.encoded c hc, h.whole c hc⟩

theorem endSegment_segment {segment : List Char} (h : Segment segment) (path : List (List Char)) (slash : Bool) :
    endSegment path segment slash = path ++ [segment] := by
  unfold endSegment
  rw [if_neg (ne_true_of_eq_false h.double), if_neg (ne_true_of_eq_false h.single)]

/-- What may follow a path. -/
@[grind] def AfterPath (rest : List Char) : Prop := ∀ c ∈ rest.head?, c = '?' ∨ c = '#'

theorem pathState_end {rest : List Char} (h : AfterPath rest) (path : List (List Char)) (buffer : List Char) :
    pathState rest path buffer = (endSegment path buffer false, rest) := by
  cases rest with
  | nil => rfl
  | cons c rest =>
    have hc := h c rfl
    have hslash : isSlash c = false := by rcases hc with rfl | rfl <;> rfl
    rw [pathState, if_neg (ne_true_of_eq_false hslash), if_pos hc]

/-- Segments are read back one by one. -/
theorem pathState_join {segment : List Char} {segments : List (List Char)} (hsegment : Segment segment)
    (hsegments : ∀ s ∈ segments, Segment s) {rest : List Char} (hrest : AfterPath rest) (path : List (List Char)) :
    pathState (segment ++ (segments.flatMap ('/' :: ·) ++ rest)) path [] = (path ++ segment :: segments, rest) := by
  induction segments generalizing segment path with
  | nil =>
    rw [pathState_chunk hsegment.readable, List.flatMap_nil, List.nil_append, List.nil_append, pathState_end hrest,
      endSegment_segment hsegment]
  | cons next segments ih =>
    have hslash : isSlash '/' = true := rfl
    rw [pathState_chunk hsegment.readable, List.flatMap_cons, List.nil_append, List.cons_append, List.cons_append,
      List.append_assoc, pathState, if_pos hslash, endSegment_segment hsegment,
      ih (hsegments next List.mem_cons_self) fun s hs => hsegments s (List.mem_cons_of_mem _ hs), List.append_assoc]
    rfl

/-- An empty query, or an empty fragment, is none. -/
@[grind] def unlessEmpty : Option (List Char) → Option (List Char)
  | some (c :: text) => some (c :: text)
  | _ => none

@[grind] def Location.normal (l : Location) : Location :=
  { l with query := unlessEmpty l.query, fragment := unlessEmpty l.fragment }

theorem marked_unlessEmpty (mark : Char) (o : Option (List Char)) : marked mark (unlessEmpty o) = marked mark o := by
  rcases o with _ | _ | ⟨c, text⟩ <;> rfl

theorem Location.text_normal (l : Location) : l.normal.text = l.text := by
  unfold Location.text Location.search Location.hash
  rw [Location.normal, marked_unlessEmpty, marked_unlessEmpty]
  rfl

theorem specialQuerySet_hash {c : Char} (h : specialQuerySet c = false) : c ≠ '#' := by
  rintro rfl
  cases h

theorem queryState_marked {l : Location} (h : Settled l) :
    queryState l.path (l.search ++ l.hash) = l.normal := by
  obtain ⟨path, query, fragment⟩ := l
  have hfragment : ∀ f, fragment = some f → encodeText fragmentSet f = f :=
    fun f hf => encodeText_of_free (h.fragment f hf)
  have hhash : queryState path (marked '#' fragment) = { path, fragment := unlessEmpty fragment } := by
    rcases fragment with _ | _ | ⟨c, f⟩
    · rfl
    · rfl
    · change Location.mk path none (some (encodeText fragmentSet (c :: f))) = _
      rw [hfragment _ rfl]
      rfl
  unfold Location.search Location.hash Location.normal
  rcases query with _ | _ | ⟨c, q⟩
  · exact hhash
  · exact hhash
  · have hq := h.query (c :: q) rfl
    have hfree : ∀ d ∈ c :: q, (d != '#') = true := fun d hd => bne_iff_ne.mpr (specialQuerySet_hash (hq d hd))
    have htake : ((c :: q) ++ marked '#' fragment).takeWhile (· != '#') = c :: q := by
      rw [List.takeWhile_append_of_pos hfree]
      rcases fragment with _ | _ | ⟨d, f⟩ <;> exact List.append_nil _
    have hdrop : ((c :: q) ++ marked '#' fragment).dropWhile (· != '#') = marked '#' fragment := by
      rw [List.dropWhile_append_of_pos hfree]
      rcases fragment with _ | _ | ⟨d, f⟩ <;> rfl
    have hread : queryState path ('?' :: ((c :: q) ++ marked '#' fragment)) = Location.mk path
        (some (encodeText specialQuerySet (((c :: q) ++ marked '#' fragment).takeWhile (· != '#'))))
        (match ((c :: q) ++ marked '#' fragment).dropWhile (· != '#') with
          | [] => none
          | _ :: fragment => some (encodeText fragmentSet fragment)) := rfl
    change queryState path ('?' :: ((c :: q) ++ marked '#' fragment)) = _
    rw [hread, htake, hdrop, encodeText_of_free hq]
    rcases fragment with _ | _ | ⟨d, f⟩
    · rfl
    · rfl
    · change Location.mk path (some (c :: q)) (some (encodeText fragmentSet (d :: f))) = _
      rw [hfragment _ rfl]
      rfl

theorem afterPath_marked (l : Location) : AfterPath (l.search ++ l.hash) := by
  obtain ⟨path, query, fragment⟩ := l
  intro c hc
  unfold Location.search Location.hash at hc
  rcases query with _ | _ | ⟨d, q⟩
  · rcases fragment with _ | _ | ⟨e, f⟩
    · cases hc
    · cases hc
    · exact Or.inr (Option.some.inj hc).symm
  · rcases fragment with _ | _ | ⟨e, f⟩
    · cases hc
    · cases hc
    · exact Or.inr (Option.some.inj hc).symm
  · exact Or.inl (Option.some.inj hc).symm

/-- **The text of a settled location is read back**, but for an empty query or fragment. Only
an empty first segment puts another slash after the first. -/
theorem parsePath_text {l : Location} (h : Settled l) :
    ∃ rest, l.text = '/' :: rest ∧ parsePath rest = l.normal ∧ ∀ c ∈ rest.head?, isSlash c = true → c = '/' := by
  obtain ⟨segment, segments, hpath⟩ := List.exists_cons_of_ne_nil h.path
  have hall := h.segments
  rw [hpath] at hall
  have hsegment := hall segment List.mem_cons_self
  have hafter := afterPath_marked l
  refine ⟨segment ++ (segments.flatMap ('/' :: ·) ++ (l.search ++ l.hash)), ?_, ?_, fun c hc hslash => ?_⟩
  · unfold Location.text Location.pathname
    rw [hpath, List.flatMap_cons]
    simp only [List.append_assoc, List.cons_append]
  · unfold parsePath
    rw [pathState_join hsegment (fun s hs => hall s (List.mem_cons_of_mem _ hs)) hafter, List.nil_append, ← hpath]
    exact queryState_marked h
  · cases segment with
    | cons d segment =>
      obtain rfl := Option.some.inj hc
      exact absurd hslash (ne_true_of_eq_false (hsegment.whole _ List.mem_cons_self))
    | nil =>
      cases segments with
      | cons next segments => exact (Option.some.inj hc).symm
      | nil => rcases hafter c hc with rfl | rfl <;> cases hslash

/-- A query or a fragment is made of what was read and of what encoding writes. -/
theorem mem_of_parsePath {text : List Char} {c : Char} :
    (∀ q ∈ (parsePath text).query, c ∈ q → Written c ∨ c ∈ text) ∧
      ∀ f ∈ (parsePath text).fragment, c ∈ f → Written c ∨ c ∈ text := by
  obtain ⟨-, -, hsuffix⟩ := @pathState_settled text [] [] (fun _ h => by cases h)
    (fun _ h => by cases h)
  have hread : ∀ {set : Char → Bool} {t : List Char}, c ∈ encodeText set t → t ⊆ (pathState text [] []).2 →
      Written c ∨ c ∈ text := fun hc ht => (mem_encodeText hc).imp_right fun hc => hsuffix.subset (ht hc.1)
  unfold parsePath
  generalize (pathState text [] []).1 = path
  generalize (pathState text [] []).2 = rest at hread
  unfold queryState
  split
  · rename_i rest
    refine ⟨fun q hq hc => ?_, fun f hf hc => ?_⟩
    · obtain rfl := Option.some.inj hq
      exact hread hc fun d hd => List.mem_cons_of_mem _ (List.takeWhile_subset _ hd)
    · dsimp only at hf
      split at hf
      · cases hf
      · rename_i d fragment hdrop
        obtain rfl := Option.some.inj hf
        have hdropped : d :: fragment ⊆ rest := hdrop ▸ List.dropWhile_subset _
        exact hread hc fun e he => List.mem_cons_of_mem _ (hdropped (List.mem_cons_of_mem _ he))
  · refine ⟨fun q hq => (by cases hq), fun f hf hc => ?_⟩
    obtain rfl := Option.some.inj hf
    exact hread hc fun d hd => List.mem_cons_of_mem _ hd
  · exact ⟨fun q hq => (by cases hq), fun f hf => (by cases hf)⟩

/-! ## Resolving -/

structure Url (ω : Type) extends Location where
  origin : ω

/-- What of the parser is not about locations: the origin an authority names, if it is one,
and a text that does not start with a slash. -/
structure Parser (ω : Type) where
  authority : List Char → Option ω
  elsewhere : ω → List Char → Option (Url ω)

@[grind] def isC0OrSpace (c : Char) : Bool := c ≤ ' '

@[grind] def isTabOrNewline (c : Char) : Bool := c == '\t' || c == '\n' || c == '\r'

/-- What the parser leaves out before it starts. -/
@[grind] def stripInput (text : List Char) : List Char :=
  ((text.dropWhile isC0OrSpace).rdropWhile isC0OrSpace).filter (!isTabOrNewline ·)

@[grind] def endsAuthority (c : Char) : Bool := isSlash c || c == '?' || c == '#'

/-- The path start state: the slash after an authority is not a segment. -/
@[grind] def pathStart : List Char → List Char
  | [] => []
  | c :: rest => if isSlash c then rest else c :: rest

section Parse

variable {ω : Type} (p : Parser ω) (base : ω)

/-- From the special authority ignore slashes state on. -/
@[grind] def Parser.parseAuthority (text : List Char) : Option (Url ω) :=
  let named := text.dropWhile isSlash
  (p.authority (named.takeWhile (!endsAuthority ·))).map fun origin =>
    { parsePath (pathStart (named.dropWhile (!endsAuthority ·))) with origin }

/-- From the relative slash state on. -/
@[grind] def Parser.relativeSlash : List Char → Option (Url ω)
  | [] => some { parsePath [] with origin := base }
  | c :: rest =>
    if isSlash c then p.parseAuthority rest else some { parsePath (c :: rest) with origin := base }

/-- A text against a base with a special scheme other than `file`. -/
@[grind] def Parser.parse (text : List Char) : Option (Url ω) :=
  match stripInput text with
  | [] => p.elsewhere base []
  | c :: rest => if isSlash c then p.relativeSlash base rest else p.elsewhere base (c :: rest)

theorem stripInput_eq_self {text : List Char} (h : ∀ c ∈ text, ' ' < c) : stripInput text = text := by
  have hkept : ∀ c ∈ text, isC0OrSpace c = false := fun c hc => decide_eq_false (not_le.mpr (h c hc))
  have hfront : text.dropWhile isC0OrSpace = text := by
    cases text with
    | nil => rfl
    | cons c rest => exact List.dropWhile_cons_of_neg (ne_true_of_eq_false (hkept c List.mem_cons_self))
  have hback : text.rdropWhile isC0OrSpace = text :=
    List.rdropWhile_eq_self_iff.mpr fun hne => ne_true_of_eq_false (hkept _ (List.getLast_mem hne))
  unfold stripInput
  rw [hfront, hback]
  refine List.filter_eq_self.mpr fun c hc => ?_
  have hc := h c hc
  unfold isTabOrNewline
  rcases eq_or_ne c '\t' with rfl | htab
  · exact absurd hc (by decide)
  rcases eq_or_ne c '\n' with rfl | hline
  · exact absurd hc (by decide)
  rcases eq_or_ne c '\r' with rfl | hreturn
  · exact absurd hc (by decide)
  simp [htab, hline, hreturn]

theorem stripInput_subset (text : List Char) : stripInput text ⊆ text := fun _ hc =>
  List.dropWhile_subset _ ((List.rdropWhile_prefix isC0OrSpace _).subset (List.mem_of_mem_filter hc))

/-- A slash in front stays in front. -/
theorem stripInput_slash (text : List Char) : ∃ rest, stripInput ('/' :: text) = '/' :: rest := by
  have hfront : ('/' :: text).dropWhile isC0OrSpace = '/' :: text := List.dropWhile_cons_of_neg (by decide)
  unfold stripInput
  rw [hfront]
  cases hback : ('/' :: text).rdropWhile isC0OrSpace with
  | nil => exact absurd ((List.rdropWhile_eq_nil_iff.mp hback) '/' List.mem_cons_self) (by decide)
  | cons c rest =>
    obtain ⟨last, hlast⟩ := hback ▸ List.rdropWhile_prefix isC0OrSpace ('/' :: text)
    obtain rfl := (List.cons.inj hlast).1
    exact ⟨_, List.filter_cons_of_pos (by decide)⟩

/-- What starts with a slash is parsed to a location that comes from the text. -/
theorem Parser.parse_slash {text : List Char} {u : Url ω} (h : p.parse base ('/' :: text) = some u) :
    ∃ t, u.toLocation = parsePath t ∧ t ⊆ '/' :: text := by
  have hsubset := stripInput_subset ('/' :: text)
  obtain ⟨rest, hstrip⟩ := stripInput_slash text
  have hslash : isSlash '/' = true := rfl
  unfold Parser.parse at h
  rw [hstrip] at h hsubset
  dsimp only at h
  rw [if_pos hslash] at h
  have hrest : rest ⊆ '/' :: text := fun c hc => hsubset (List.mem_cons_of_mem _ hc)
  cases rest with
  | nil =>
    obtain rfl := Option.some.inj h
    exact ⟨[], rfl, List.nil_subset _⟩
  | cons c rest =>
    rw [Parser.relativeSlash] at h
    split at h
    · obtain ⟨origin, -, rfl⟩ := Option.map_eq_some_iff.mp h
      refine ⟨_, rfl, fun d hd => hrest (List.mem_cons_of_mem _ (List.dropWhile_subset isSlash ?_))⟩
      have hstart : ∀ t : List Char, pathStart t ⊆ t := fun t e he => by
        cases t with
        | nil => exact he
        | cons f t =>
          rw [pathStart] at he
          split at he
          · exact List.mem_cons_of_mem _ he
          · exact he
      exact List.dropWhile_subset _ (hstart _ hd)
    · obtain rfl := Option.some.inj h
      exact ⟨_, rfl, hrest⟩

/-- What a location is written with is visible. -/
theorem visible_of_mem_text {l : Location} (h : Settled l) {c : Char} (hc : c ∈ l.text) :
    ' ' < c ∧ c ≤ '~' := by
  have hvisible : ∀ {d : Char}, c0ControlSet d = false → d ≠ ' ' → ' ' < d ∧ d ≤ '~' := fun {d} hset hspace => by
    simp only [c0ControlSet, Bool.or_eq_false_iff, decide_eq_false_iff_not, not_lt] at hset
    exact ⟨lt_of_le_of_ne hset.1 hspace.symm, hset.2⟩
  have hquery : ∀ {d : Char}, querySet d = false → ' ' < d ∧ d ≤ '~' := fun {d} hset => by
    refine hvisible (Bool.or_eq_false_iff.mp hset).1 ?_
    rintro rfl
    cases hset
  unfold Location.text Location.pathname Location.search Location.hash at hc
  rcases List.mem_append.mp hc with hc | hc
  · rcases List.mem_append.mp hc with hc | hc
    · obtain ⟨segment, hsegment, hc⟩ := List.mem_flatMap.mp hc
      rcases List.mem_cons.mp hc with rfl | hc
      · decide
      · exact hquery (Bool.or_eq_false_iff.mp ((h.segments segment hsegment).encoded c hc)).1
    · rcases hq : l.query with _ | _ | ⟨d, q⟩
      · rw [hq] at hc
        cases hc
      · rw [hq] at hc
        cases hc
      · rw [hq] at hc
        rcases List.mem_cons.mp hc with rfl | hc
        · decide
        · exact hquery (Bool.or_eq_false_iff.mp (h.query _ hq c hc)).1
  · rcases hf : l.fragment with _ | _ | ⟨d, f⟩
    · rw [hf] at hc
      cases hc
    · rw [hf] at hc
      cases hc
    · rw [hf] at hc
      rcases List.mem_cons.mp hc with rfl | hc
      · decide
      · have hset := h.fragment _ hf c hc
        refine hvisible (Bool.or_eq_false_iff.mp hset).1 ?_
        rintro rfl
        cases hset

/-- **A settled location stays what it is, on whatever origin its text is resolved**, as long
as the text does not start with two slashes. -/
theorem Parser.parse_text {l : Location} (h : Settled l) (hone : ¬ ['/', '/'] <+: l.text) :
    p.parse base l.text = some { l.normal with origin := base } := by
  obtain ⟨rest, htext, hparse, hhead⟩ := parsePath_text h
  have hslash : isSlash '/' = true := rfl
  unfold Parser.parse
  rw [stripInput_eq_self fun c hc => (visible_of_mem_text h hc).1, htext]
  dsimp only
  rw [if_pos hslash]
  cases rest with
  | nil =>
    rw [Parser.relativeSlash, hparse]
  | cons c rest =>
    have hc : isSlash c = false := by
      refine eq_false_of_ne_true fun hc => hone ?_
      obtain rfl := hhead c rfl hc
      rw [htext]
      exact List.prefix_append ['/', '/'] rest
    rw [Parser.relativeSlash, if_neg (ne_true_of_eq_false hc), hparse]

end Parse

end Urls
