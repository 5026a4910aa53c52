import Mathlib
import BetterDecision.Lib.Streams

/-!
# UTF-8, decoded as it comes

The streaming decoder of the encoding standard with replacement: a byte that cannot go on
with the character under way ends it as U+FFFD and is looked at again as a first byte. A
byte order mark is dropped when it is the first character of the stream.

`decode_encode`: what was encoded is decoded as it was, unless it starts with that mark.
-/

namespace Utf8

open Streams

@[grind] def replacement : Char := '\uFFFD'

/-- Between characters, or inside one: how many bytes come after the next, the bounds of the
next, and the bits of the code point so far. -/
inductive State
  | start
  | inside (more lower upper point : Nat)
  deriving DecidableEq

/-- The first byte of a character. -/
@[grind] def first (b : Nat) : State × List Char :=
  if b ≤ 0x7F then (.start, [Char.ofNat b])
  else if 0xC2 ≤ b ∧ b ≤ 0xDF then (.inside 0 0x80 0xBF (b % 0x20), [])
  else if 0xE0 ≤ b ∧ b ≤ 0xEF then
    (.inside 1 (if b = 0xE0 then 0xA0 else 0x80) (if b = 0xED then 0x9F else 0xBF) (b % 0x10), [])
  else if 0xF0 ≤ b ∧ b ≤ 0xF4 then
    (.inside 2 (if b = 0xF0 then 0x90 else 0x80) (if b = 0xF4 then 0x8F else 0xBF) (b % 0x08), [])
  else (.start, [replacement])

@[grind] def step : State → UInt8 → State × List Char
  | .start, b => first b.toNat
  | .inside more lower upper point, b =>
    if lower ≤ b.toNat ∧ b.toNat ≤ upper then
      let point := point * 64 + b.toNat % 64
      match more with
      | 0 => (.start, [Char.ofNat point])
      | more + 1 => (.inside more 0x80 0xBF point, [])
    else
      let again := first b.toNat
      (again.1, replacement :: again.2)

/-- The first character of all is dropped if it is the byte order mark. -/
@[grind] def dropMark (seen : Bool) (c : Char) : Bool × List Char :=
  (true, if seen = false ∧ c = '\uFEFF' then [] else [c])

abbrev Decoder := State × Bool

@[grind] def Decoder.fresh : Decoder := (.start, false)

/-- `decode(bytes, { stream: true })`. -/
@[grind] def decode : Decoder → List UInt8 → Decoder × List Char :=
  andThen (letters step) (letters dropMark)

theorem seamless_decode : Seamless decode :=
  (seamless_letters step).andThen (seamless_letters dropMark)

/-! ## Decoding what was encoded -/

@[grind] def encode (s : List Char) : List UInt8 := s.flatMap String.utf8EncodeChar

theorem toNat_byte {n : Nat} (h : n < 256) : (UInt8.ofNat n).toNat = n := by
  rw [UInt8.toNat_ofNat', Nat.mod_eq_of_lt h]

theorem scalar (c : Char) : c.val.toNat < 0xD800 ∨ 0xE000 ≤ c.val.toNat ∧ c.val.toNat < 0x110000 := by
  rcases c.valid with h | ⟨h, h'⟩
  · exact Or.inl h
  · exact Or.inr ⟨by omega, h'⟩

theorem step_inside {more lower upper point : Nat} {b : UInt8} {n : Nat} (hb : b.toNat = n) (hlo : lower ≤ n)
    (hhi : n ≤ upper) :
    step (.inside more lower upper point) b =
      match more with
      | 0 => (.start, [Char.ofNat (point * 64 + n % 64)])
      | more + 1 => (.inside more 0x80 0xBF (point * 64 + n % 64), []) := by
  subst hb
  rw [step, if_pos ⟨hlo, hhi⟩]

theorem letters_encodeChar (c : Char) : letters step .start (String.utf8EncodeChar c) = (.start, [c]) := by
  have hscalar := scalar c
  have hc : Char.ofNat c.val.toNat = c := Char.ofNat_toNat c
  generalize hv : c.val.toNat = v at hscalar hc
  rw [String.utf8EncodeChar]
  simp only [hv]
  split_ifs with h1 h2 h3
  · simp only [letters, step, toNat_byte (show v < 256 by omega), first, if_pos h1, hc, List.append_nil]
  · rw [letters, step, toNat_byte (by omega), first, if_neg (by omega), if_pos (by omega)]
    dsimp only
    rw [letters, step_inside (toNat_byte (by omega)) (by omega) (by omega)]
    simp only [letters, List.nil_append, List.append_nil]
    rw [show (v / 64 % 32 + 192) % 32 * 64 + (v % 64 + 128) % 64 = v by omega, hc]
  · rw [letters, step, toNat_byte (by omega), first, if_neg (by omega), if_neg (by omega), if_pos (by omega)]
    dsimp only
    rw [letters, step_inside (toNat_byte (by omega)) (by split_ifs <;> omega) (by split_ifs <;> omega)]
    dsimp only
    rw [letters, step_inside (toNat_byte (by omega)) (by omega) (by omega)]
    simp only [letters, List.nil_append, List.append_nil]
    rw [show ((v / 4096 % 16 + 224) % 16 * 64 + (v / 64 % 64 + 128) % 64) * 64 + (v % 64 + 128) % 64 = v by omega, hc]
  · rw [letters, step, toNat_byte (by omega), first, if_neg (by omega), if_neg (by omega), if_neg (by omega),
      if_pos (by omega)]
    dsimp only
    rw [letters, step_inside (toNat_byte (by omega)) (by split_ifs <;> omega) (by split_ifs <;> omega)]
    dsimp only
    rw [letters, step_inside (toNat_byte (by omega)) (by omega) (by omega)]
    dsimp only
    rw [letters, step_inside (toNat_byte (by omega)) (by omega) (by omega)]
    simp only [letters, List.nil_append, List.append_nil]
    rw [show (((v / 262144 % 8 + 240) % 8 * 64 + (v / 4096 % 64 + 128) % 64) * 64 + (v / 64 % 64 + 128) % 64) * 64 +
      (v % 64 + 128) % 64 = v by omega, hc]

theorem letters_encode (s : List Char) : letters step .start (encode s) = (.start, s) := by
  induction s with
  | nil => rfl
  | cons c s ih =>
    have hs : letters step .start (s.flatMap String.utf8EncodeChar) = (.start, s) := ih
    rw [encode, List.flatMap_cons, seamless_letters step, letters_encodeChar]
    dsimp only
    rw [hs]
    rfl

/-- Past the first character nothing is dropped. -/
theorem letters_dropMark_seen (s : List Char) : letters dropMark true s = (true, s) := by
  induction s with
  | nil => rfl
  | cons c s ih => simp [letters, dropMark, ih]

/-- **What was encoded is decoded as it was.** -/
theorem decode_encode {s : List Char} (h : s.head? ≠ some '\uFEFF') : (decode Decoder.fresh (encode s)).2 = s := by
  rw [decode, andThen, Decoder.fresh]
  dsimp only
  rw [letters_encode]
  cases s with
  | nil => rfl
  | cons c s =>
    have hc : c ≠ '\uFEFF' := fun heq => h (by rw [heq]; rfl)
    simp [letters, dropMark, hc, letters_dropMark_seen]

/-! ## All at once -/

/-- `bytes.decode("utf-8", errors="replace")`: a character that is cut off by the end is replaced as
well, and no mark is dropped. -/
@[grind] def decodeReplace (bytes : List UInt8) : List Char :=
  let (state, decoded) := letters step .start bytes
  if state = .start then decoded else decoded ++ [replacement]

/-- A first byte gives a character, or is inside of one. -/
theorem first_cases (b : Nat) : (first b).1 ≠ .start ∨ (first b).2 ≠ [] := by
  unfold first
  split_ifs <;> simp

theorem step_cases (s : State) (b : UInt8) : (step s b).1 ≠ .start ∨ (step s b).2 ≠ [] := by
  cases s with
  | start => exact first_cases b.toNat
  | inside more lower upper point =>
    simp only [step]
    split
    · cases more with
      | zero => exact .inr (by simp)
      | succ more => exact .inl (by simp)
    · exact .inr (by simp)

/-- Bytes leave something: a character, or one under way. -/
theorem letters_cases {bytes : List UInt8} (h : bytes ≠ []) (s : State) :
    (letters step s bytes).1 ≠ .start ∨ (letters step s bytes).2 ≠ [] := by
  induction bytes generalizing s with
  | nil => exact absurd rfl h
  | cons b bytes ih =>
    rw [letters]
    dsimp only
    by_cases hrest : bytes = []
    · subst hrest
      rw [letters, List.append_nil]
      exact step_cases s b
    · refine (ih hrest (step s b).1).imp_right fun hne heq => hne ?_
      exact (List.append_eq_nil_iff.mp heq).2

theorem decodeReplace_eq_nil {bytes : List UInt8} : decodeReplace bytes = [] ↔ bytes = [] := by
  constructor
  · intro h
    by_contra hne
    unfold decodeReplace at h
    dsimp only at h
    rcases letters_cases hne .start with hstate | hdecoded
    · rw [if_neg hstate] at h
      exact absurd (List.append_eq_nil_iff.mp h).2 (List.cons_ne_nil _ _)
    · split at h
      · exact hdecoded h
      · exact absurd (List.append_eq_nil_iff.mp h).2 (List.cons_ne_nil _ _)
  · rintro rfl
    rfl

end Utf8
