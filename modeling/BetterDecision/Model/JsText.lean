import BetterDecision.Lib.Utf8

/-!
# Texts of the browser

A string of JavaScript is the list of its UTF-16 code units, whether they pair up or not.
-/

namespace BetterDecision

abbrev JsString := List UInt16

/-- The code unit of a character of the first plane. -/
def unit (c : Char) : UInt16 := c.toNat.toUInt16

def units (text : List Char) : JsString := text.map unit

/-- The first, and the second, unit of a character of another plane. -/
def isLead (u : UInt16) : Bool := 0xD800 ≤ u && u < 0xDC00

def isTrail (u : UInt16) : Bool := 0xDC00 ≤ u && u < 0xE000

def pairChar (lead trail : UInt16) : Char :=
  Char.ofNat (0x10000 + (lead.toNat - 0xD800) * 0x400 + (trail.toNat - 0xDC00))

/-- The characters of a string. A unit without its partner is replaced. -/
def usvString : JsString → List Char
  | [] => []
  | u :: us =>
    if isLead u then
      match us with
      | [] => [Utf8.replacement]
      | v :: rest => if isTrail v then pairChar u v :: usvString rest else Utf8.replacement :: usvString (v :: rest)
    else if isTrail u then Utf8.replacement :: usvString us
    else Char.ofNat u.toNat :: usvString us

/-! ### Characters that are their unit -/

theorem toNat_unit {c : Char} (hc : c.toNat < 0x10000) : (unit c).toNat = c.toNat := by
  unfold unit
  rw [UInt16.toNat_ofNat']
  exact Nat.mod_eq_of_lt hc

theorem toNat_ofNat_of_valid {n : Nat} (h : n.isValidChar) : (Char.ofNat n).toNat = n := by
  unfold Char.ofNat
  rw [dif_pos h]
  rfl

theorem isLead_iff (u : UInt16) : isLead u = true ↔ 0xD800 ≤ u.toNat ∧ u.toNat < 0xDC00 := by
  unfold isLead
  rw [Bool.and_eq_true, decide_eq_true_iff, decide_eq_true_iff, UInt16.le_iff_toNat_le, UInt16.lt_iff_toNat_lt]
  exact Iff.rfl

theorem isTrail_iff (u : UInt16) : isTrail u = true ↔ 0xDC00 ≤ u.toNat ∧ u.toNat < 0xE000 := by
  unfold isTrail
  rw [Bool.and_eq_true, decide_eq_true_iff, decide_eq_true_iff, UInt16.le_iff_toNat_le, UInt16.lt_iff_toNat_lt]
  exact Iff.rfl

theorem toNat_pairChar {u v : UInt16} (hu : isLead u = true) (hv : isTrail v = true) :
    (pairChar u v).toNat = 0x10000 + (u.toNat - 0xD800) * 0x400 + (v.toNat - 0xDC00) := by
  have hu := (isLead_iff u).mp hu
  have hv := (isTrail_iff v).mp hv
  unfold pairChar
  exact toNat_ofNat_of_valid (Or.inr ⟨by omega, by omega⟩)

theorem unit_ofNat {u : UInt16} (hlead : ¬ isLead u = true) (htrail : ¬ isTrail u = true) :
    unit (Char.ofNat u.toNat) = u := by
  have hu := u.toNat_lt
  rw [isLead_iff] at hlead
  rw [isTrail_iff] at htrail
  have hvalid : u.toNat.isValidChar := by
    rcases Nat.lt_or_ge u.toNat 0xD800 with h | h
    · exact Or.inl h
    · exact Or.inr ⟨by omega, by omega⟩
  unfold unit
  rw [toNat_ofNat_of_valid hvalid]
  exact UInt16.ofNat_toNat

theorem usvString_unit {c : Char} (hc : c.toNat < 0xD800) (us : JsString) :
    usvString (unit c :: us) = c :: usvString us := by
  have hunit := toNat_unit (show c.toNat < 0x10000 by omega)
  have hlead : ¬ isLead (unit c) = true := by
    rw [isLead_iff]
    omega
  have htrail : ¬ isTrail (unit c) = true := by
    rw [isTrail_iff]
    omega
  rw [usvString.eq_def]
  dsimp only
  rw [if_neg hlead, if_neg htrail, hunit, Char.ofNat_toNat]

theorem usvString_units {text : List Char} (h : ∀ c ∈ text, c.toNat < 0xD800) : usvString (units text) = text := by
  induction text with
  | nil => rfl
  | cons c text ih =>
    have hrest := ih fun d hd => h d (List.mem_cons_of_mem _ hd)
    unfold units at hrest ⊢
    rw [List.map_cons, usvString_unit (h c List.mem_cons_self), hrest]

/-- A character of ASCII is in a string iff its unit is. -/
theorem unit_mem_of_mem {c : Char} (hc : c.toNat < 0x80) {us : JsString} (h : c ∈ usvString us) : unit c ∈ us := by
  have hreplaced : c ≠ Utf8.replacement := by
    rintro rfl
    have hpoint : Utf8.replacement.toNat = 0xFFFD := toNat_ofNat_of_valid (Or.inr ⟨by decide, by decide⟩)
    omega
  fun_induction usvString us with
  | case1 => cases h
  | case2 => exact absurd (List.mem_singleton.mp h) hreplaced
  | case3 u hlead v rest htrail ih =>
    rcases List.mem_cons.mp h with heq | h
    · have hpoint := toNat_pairChar hlead htrail
      rw [← heq] at hpoint
      omega
    · exact List.mem_cons_of_mem _ (List.mem_cons_of_mem _ (ih h))
  | case4 u hlead v rest htrail ih => exact List.mem_cons_of_mem _ (ih ((List.mem_cons.mp h).resolve_left hreplaced))
  | case5 u us hlead htrail ih => exact List.mem_cons_of_mem _ (ih ((List.mem_cons.mp h).resolve_left hreplaced))
  | case6 u us hlead htrail ih =>
    rcases List.mem_cons.mp h with heq | h
    · rw [heq, unit_ofNat hlead htrail]
      exact List.mem_cons_self
    · exact List.mem_cons_of_mem _ (ih h)

end BetterDecision
