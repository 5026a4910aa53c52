import Mathlib.Data.List.Basic

/-!
# Lines, read part by part

A text is split into lines at one mark, at another, and at the first followed by the second
as at one. Read in pieces, the two halves of such a pair may lie apart, and then there is an
empty line between them; but for empty lines, no way of cutting shows.

`Cut` is what was read so far: the finished lines that are not empty, and the line under way.
-/

namespace Lines

universe u

variable {α : Type u}

section Split

variable [DecidableEq α] (cr lf : α)

/-- `re.split(rb"\r\n|\r|\n", text)`. -/
@[grind] def split : List α → List (List α)
  | [] => [[]]
  | [a] => if a = cr ∨ a = lf then [[], []] else [[a]]
  | a :: b :: rest =>
    if a = cr ∧ b = lf then [] :: split rest
    else if a = cr ∨ a = lf then [] :: split (b :: rest)
    else (split (b :: rest)).modifyHead (a :: ·)

theorem split_ne_nil (xs : List α) : split cr lf xs ≠ [] := by
  fun_induction split cr lf xs with
  | case1 => exact List.cons_ne_nil _ _
  | case2 => exact List.cons_ne_nil _ _
  | case3 => exact List.cons_ne_nil _ _
  | case4 => exact List.cons_ne_nil _ _
  | case5 => exact List.cons_ne_nil _ _
  | case6 a b rest _ _ ih =>
    obtain ⟨line, lines, hlines⟩ := List.exists_cons_of_ne_nil ih
    rw [hlines]
    exact List.cons_ne_nil _ _

/-- The lines have no more letters than the text. -/
theorem length_flatten_split_le (xs : List α) : (split cr lf xs).flatten.length ≤ xs.length := by
  fun_induction split cr lf xs with
  | case1 => exact Nat.le_refl _
  | case2 => exact Nat.zero_le _
  | case3 => exact Nat.le_refl _
  | case4 a b rest _ ih =>
    simp only [List.flatten_cons, List.nil_append, List.length_cons]
    omega
  | case5 a b rest _ _ ih =>
    simp only [List.flatten_cons, List.nil_append, List.length_cons] at ih ⊢
    omega
  | case6 a b rest _ _ ih =>
    obtain ⟨line, lines, hlines⟩ := List.exists_cons_of_ne_nil (split_ne_nil cr lf (b :: rest))
    rw [hlines] at ih ⊢
    simp only [List.modifyHead_cons, List.flatten_cons, List.cons_append, List.length_cons] at ih ⊢
    omega

end Split

/-! ## What was read so far -/

structure Cut (α : Type u) where
  closed : List (List α) := []
  /-- The line under way. -/
  pending : List α := []

namespace Cut

/-- The lines that are not empty, if the text ends here. -/
@[grind] def lines (c : Cut α) : List (List α) := c.closed ++ [c.pending].filter (· ≠ [])

@[grind] def put (c : Cut α) (part : List α) : Cut α := { c with pending := c.pending ++ part }

@[grind] def close (c : Cut α) : Cut α where
  closed := c.lines
  pending := []

/-- One part of a piece; each but the first begins a line. -/
@[grind] def next (later : Bool) (c : Cut α) (part : List α) : Cut α := (if later then c.close else c).put part

/-- Part after part. -/
@[grind] def take (later : Bool) (c : Cut α) : List (List α) → Cut α
  | [] => c
  | part :: parts => take true (next later c part) parts

@[simp] theorem put_nil (c : Cut α) : c.put [] = c := by
  rw [put, List.append_nil]

theorem put_put (c : Cut α) (part part' : List α) : (c.put part).put part' = c.put (part ++ part') := by
  rw [put, put, put, List.append_assoc]

theorem lines_close (c : Cut α) : c.close.lines = c.lines := List.append_nil _

@[simp] theorem close_close (c : Cut α) : c.close.close = c.close := by
  rw [close, lines_close, close]

theorem take_true_eq (c : Cut α) {parts : List (List α)} (h : parts ≠ []) :
    c.take true parts = c.close.take false parts := by
  obtain ⟨part, parts, rfl⟩ := List.exists_cons_of_ne_nil h
  rfl

theorem lines_take_true (c : Cut α) (parts : List (List α)) :
    (c.take true parts).lines = c.lines ++ parts.filter (· ≠ []) := by
  induction parts generalizing c with
  | nil => exact (List.append_nil _).symm
  | cons part parts ih =>
    have hnext : (c.next true part).lines = c.lines ++ [part].filter (· ≠ []) := rfl
    rw [take, ih, hnext, List.append_assoc, ← List.filter_append, List.singleton_append]

/-- The parts of a whole text are its lines. -/
theorem lines_take (parts : List (List α)) : (({} : Cut α).take false parts).lines = parts.filter (· ≠ []) := by
  cases parts with
  | nil => rfl
  | cons part parts =>
    rw [take, lines_take_true]
    exact (List.filter_append (p := (· ≠ [])) [part] parts).symm

/-! ## Letter by letter -/

section Letters

variable [DecidableEq α] (cr lf : α)

@[grind] def letter (c : Cut α) (a : α) : Cut α := if a = cr ∨ a = lf then c.close else c.put [a]

@[grind] def read (c : Cut α) (xs : List α) : Cut α := xs.foldl (letter cr lf) c

theorem read_append (c : Cut α) (xs ys : List α) : c.read cr lf (xs ++ ys) = (c.read cr lf xs).read cr lf ys :=
  List.foldl_append

/-- **A piece taken line by line is read letter by letter**: the second half of a pair ends
an empty line. -/
theorem take_split (c : Cut α) (xs : List α) : c.take false (split cr lf xs) = c.read cr lf xs := by
  fun_induction split cr lf xs generalizing c with
  | case1 => exact put_nil c
  | case2 a hmark =>
    rw [read, List.foldl_cons, letter, if_pos hmark]
    simp [take, next]
  | case3 a hmark =>
    rw [read, List.foldl_cons, letter, if_neg hmark]
    rfl
  | case4 a b rest hpair ih =>
    have hfirst : letter cr lf c a = c.close := if_pos (.inl hpair.1)
    have hsecond : letter cr lf c.close b = c.close := (if_pos (.inr hpair.2)).trans (close_close c)
    have hnext : c.next false [] = c := put_nil c
    rw [take, hnext, take_true_eq c (split_ne_nil cr lf rest), ih, read, read,
      List.foldl_cons, hfirst, List.foldl_cons, hsecond]
  | case5 a b rest _ hmark ih =>
    have hfirst : letter cr lf c a = c.close := if_pos hmark
    have hcons : c.read cr lf (a :: b :: rest) = (letter cr lf c a).read cr lf (b :: rest) := rfl
    have hnext : c.next false [] = c := put_nil c
    rw [take, hnext, take_true_eq c (split_ne_nil cr lf _), ih, hcons, hfirst]
  | case6 a b rest _ hmark ih =>
    obtain ⟨line, lines, hlines⟩ := List.exists_cons_of_ne_nil (split_ne_nil cr lf (b :: rest))
    have hput := ih (c.put [a])
    have hnext : (c.put [a]).next false line = c.next false (a :: line) := put_put c [a] line
    rw [hlines, take, hnext] at hput
    have hfirst : letter cr lf c a = c.put [a] := if_neg hmark
    have hcons : c.read cr lf (a :: b :: rest) = (letter cr lf c a).read cr lf (b :: rest) := rfl
    rw [hlines, List.modifyHead_cons, take, hput, hcons, hfirst]

/-- The lines of a text that are not empty, however it is read. -/
theorem lines_read (xs : List α) : (({} : Cut α).read cr lf xs).lines = (split cr lf xs).filter (· ≠ []) := by
  rw [← take_split, lines_take]

end Letters

/-! ## Reading on -/

/-- What is closed stays, and the line under way goes on. -/
structure Before (c c' : Cut α) : Prop where
  closed : c.closed <+: c'.closed
  pending : c.pending <+: c'.pending ∨ ∃ line ∈ c'.closed, c.pending <+: line

namespace Before

theorem refl (c : Cut α) : Before c c := ⟨List.prefix_rfl, .inl List.prefix_rfl⟩

theorem trans {c c' c'' : Cut α} (h : Before c c') (h' : Before c' c'') : Before c c'' where
  closed := h.closed.trans h'.closed
  pending := by
    rcases h.pending with hp | ⟨line, hline, hp⟩
    · exact h'.pending.imp hp.trans fun ⟨line, hline, hp'⟩ => ⟨line, hline, hp.trans hp'⟩
    · exact .inr ⟨line, h'.closed.subset hline, hp⟩

theorem put (c : Cut α) (part : List α) : Before c (c.put part) :=
  ⟨List.prefix_rfl, .inl (List.prefix_append _ _)⟩

theorem close (c : Cut α) : Before c c.close where
  closed := List.prefix_append _ _
  pending := by
    by_cases h : c.pending = []
    · exact .inl (h ▸ List.prefix_rfl)
    · refine .inr ⟨c.pending, List.mem_append_right _ ?_, List.prefix_rfl⟩
      exact List.mem_filter.mpr ⟨List.mem_singleton_self _, decide_eq_true h⟩

theorem next (later : Bool) (c : Cut α) (part : List α) : Before c (c.next later part) := by
  cases later with
  | false => exact put c part
  | true => exact (close c).trans (put c.close part)

theorem take (later : Bool) (c : Cut α) (parts : List (List α)) : Before c (c.take later parts) := by
  induction parts generalizing c later with
  | nil => exact refl c
  | cons part parts ih =>
    exact (next later c part).trans (ih true _)

theorem read [DecidableEq α] (cr lf : α) (c : Cut α) (xs : List α) : Before c (c.read cr lf xs) :=
  take_split cr lf c xs ▸ take false c _

/-- What is closed are first lines. -/
theorem lines {c c' : Cut α} (h : Before c c') : c.closed <+: c'.lines :=
  h.closed.trans (List.prefix_append _ _)

/-- Some line is as long as the one under way. -/
theorem exists_longer {c c' : Cut α} (h : Before c c') {n : Nat} (hn : n < c.pending.length) :
    ∃ line ∈ c'.lines, n < line.length := by
  rcases h.pending with hp | ⟨line, hline, hp⟩
  · have hlong := Nat.lt_of_lt_of_le hn hp.length_le
    refine ⟨c'.pending, List.mem_append_right _ (List.mem_filter.mpr ⟨List.mem_singleton_self _, ?_⟩), hlong⟩
    exact decide_eq_true (List.ne_nil_of_length_pos (Nat.zero_lt_of_lt hlong))
  · exact ⟨line, List.mem_append_left _ hline, Nat.lt_of_lt_of_le hn hp.length_le⟩

end Before

end Cut

end Lines
