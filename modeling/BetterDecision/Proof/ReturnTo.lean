import BetterDecision.Model.ReturnTo

/-!
# The way back never leaves the site

What is returned is the text of a settled location that starts with one slash, and such a
text names the same location on every origin: nothing in it is encoded anew, no segment
turns into a dot segment, and nothing is stripped. So the check against the sentinel is a
check against all origins, and the text passes it again.
-/

namespace BetterDecision

open Urls

/-- A location to go back to. -/
structure Returnable (l : Location) : Prop where
  settled : Urls.Settled l
  /-- No authority. -/
  oneSlash : ¬ ['/', '/'] <+: l.text
  allowed : l.pathname ∉ blockedReturnPaths
  forward : '\\' ∉ l.text

section Text

variable {l : Location}

/-- What a settled location is written with is its own unit. -/
theorem usvString_text (h : Urls.Settled l) : usvString (units l.text) = l.text := by
  refine usvString_units fun c hc => ?_
  have hc : c.toNat ≤ '~'.toNat := (visible_of_mem_text h hc).2
  have hlast : '~'.toNat = 126 := rfl
  omega

/-- The text resolves to the location, on every origin. -/
theorem Returnable.resolves (h : Returnable l) (p : Parser String) (base : String) :
    newUrl p (units l.text) base = some { l.normal with origin := base } := by
  unfold newUrl
  rw [usvString_text h.settled]
  exact p.parse_text base h.settled h.oneSlash

theorem pathname_starts (l : Location) : l.pathname <+: l.text := by
  unfold Location.text
  rw [List.append_assoc]
  exact List.prefix_append _ _

theorem isC0Unit_unit {c : Char} (hc : ' ' < c ∧ c ≤ '~') : isC0Unit (unit c) = false := by
  have hlow : ' '.toNat < c.toNat := hc.1
  have hhigh : c.toNat ≤ '~'.toNat := hc.2
  have hspace : ' '.toNat = 32 := rfl
  have htilde : '~'.toNat = 126 := rfl
  have hunit := toNat_unit (show c.toNat < 0x10000 by omega)
  have hlast : (0x1F : UInt16).toNat = 31 := rfl
  refine decide_eq_false fun hle => ?_
  rw [UInt16.le_iff_toNat_le] at hle
  omega

/-- **A text that has been returned is returned again.** -/
theorem Returnable.kept (h : Returnable l) (p : Parser String) :
    sanitizeReturnTo p (some (units l.text)) = units l.text := by
  obtain ⟨rest, htext, -, -⟩ := parsePath_text h.settled
  have hresolves := h.resolves p sentinelOrigin
  have hcontrols : (units l.text).any isC0Unit = false := by
    refine List.any_eq_false.mpr fun u hu => ?_
    obtain ⟨c, hc, rfl⟩ := List.mem_map.mp hu
    exact ne_true_of_eq_false (isC0Unit_unit (visible_of_mem_text h.settled hc))
  have hforward : (units l.text).contains (unit '\\') = false := by
    refine eq_false_of_ne_true fun hmem => h.forward ?_
    obtain ⟨c, hc, hunit⟩ := List.mem_map.mp (List.contains_iff_mem.mp hmem)
    have hlast : c.toNat ≤ '~'.toNat := (visible_of_mem_text h.settled hc).2
    have htilde : '~'.toNat = 126 := rfl
    have hpoints := congrArg UInt16.toNat hunit
    rw [toNat_unit (by omega), toNat_unit (by decide)] at hpoints
    rwa [Char.toNat_inj.mp hpoints] at hc
  have hpath : ¬ ['/', '/'].isPrefixOf l.normal.pathname = true := fun hprefix =>
    h.oneSlash ((List.isPrefixOf_iff_prefix.mp hprefix).trans (pathname_starts l))
  have htwo : ¬ ['/', '/'].isPrefixOf l.text = true := fun hprefix => h.oneSlash (List.isPrefixOf_iff_prefix.mp hprefix)
  have hblocked : ¬ blockedReturnPaths.contains l.normal.pathname = true := fun hmem =>
    h.allowed (List.contains_iff_mem.mp hmem)
  have hnormal : l.normal.pathname ++ l.normal.search ++ l.normal.hash = l.text := Location.text_normal l
  have hunits : units l.text = unit '/' :: units rest := by rw [htext]; rfl
  have hone : newUrl p (unit '/' :: units rest) sentinelOrigin = some { l.normal with origin := sentinelOrigin } :=
    hunits ▸ hresolves
  rw [hunits] at hcontrols hforward
  conv_lhs => rw [hunits]
  unfold sanitizeReturnTo
  dsimp only
  rw [if_neg fun hne => hne rfl, if_neg (ne_true_of_eq_false hcontrols), if_neg (ne_true_of_eq_false hforward), hone]
  dsimp only
  rw [if_neg fun hne => hne rfl, if_neg hblocked, hnormal, if_neg fun hor => hor.elim htwo hpath, hresolves]
  dsimp only
  exact if_neg fun hne => hne rfl

end Text

/-! ## What is returned -/

def fallbackLocation : Location := parsePath returnToFallback.tail

theorem fallbackLocation_text : fallbackLocation.text = returnToFallback := by decide +kernel

theorem fallback_returnable : Returnable fallbackLocation where
  settled := parsePath_settled _
  oneSlash := by
    rw [fallbackLocation_text]
    decide
  allowed := by decide +kernel
  forward := by
    rw [fallbackLocation_text]
    decide

/-- A location that is read from a text with no backslash has none. -/
theorem backslash_not_mem {t : List Char} (ht : '\\' ∉ t) : '\\' ∉ (parsePath t).text := by
  have hsettled := parsePath_settled t
  have hread : ¬ (Written '\\' ∨ '\\' ∈ t) := fun h => h.elim (fun hw => absurd (written_not_slash hw) (by decide)) ht
  obtain ⟨hquery, hfragment⟩ := @mem_of_parsePath t '\\'
  have hmarked : ∀ {mark : Char} {o : Option (List Char)}, mark ≠ '\\' → (∀ q ∈ o, '\\' ∉ q) → '\\' ∉ marked mark o :=
    fun {mark o} hmark ho hmem => by
      rcases o with _ | _ | ⟨d, q⟩
      · cases hmem
      · cases hmem
      · exact (List.mem_cons.mp hmem).elim (fun h => hmark h.symm) (ho _ rfl)
  intro hmem
  unfold Location.text Location.pathname at hmem
  rcases List.mem_append.mp hmem with hmem | hmem
  · rcases List.mem_append.mp hmem with hmem | hmem
    · obtain ⟨segment, hsegment, hmem⟩ := List.mem_flatMap.mp hmem
      rcases List.mem_cons.mp hmem with h | h
      · exact absurd h (by decide)
      · exact absurd ((hsettled.segments segment hsegment).whole _ h) (by decide)
    · exact hmarked (by decide) (fun q hq h => hread (hquery q hq h)) hmem
  · exact hmarked (by decide) (fun f hf h => hread (hfragment f hf h)) hmem

theorem usvString_slash (us : JsString) : usvString (unit '/' :: us) = '/' :: usvString us := usvString_unit (by decide) us

theorem returned (p : Parser String) (raw : Option JsString) :
    ∃ l, Returnable l ∧ sanitizeReturnTo p raw = units l.text := by
  have hfallback : ∃ l, Returnable l ∧ units returnToFallback = units l.text :=
    ⟨fallbackLocation, fallback_returnable, by rw [fallbackLocation_text]⟩
  unfold sanitizeReturnTo
  split
  · exact hfallback
  · exact hfallback
  · rename_i first rest
    split
    · exact hfallback
    rename_i hslash
    obtain rfl : first = unit '/' := Classical.not_not.mp hslash
    split
    · exact hfallback
    split
    · exact hfallback
    rename_i hforward
    split
    · exact hfallback
    rename_i u hu
    split
    · exact hfallback
    split
    · exact hfallback
    rename_i hblocked
    dsimp only
    split
    · exact hfallback
    rename_i htwo
    split
    · exact hfallback
    split
    · exact hfallback
    -- the location of the address, which passed every check
    unfold newUrl at hu
    rw [usvString_slash] at hu
    obtain ⟨t, hlocation, ht⟩ := p.parse_slash sentinelOrigin hu
    have hplain : '\\' ∉ usvString (unit '/' :: rest) := fun hmem =>
      hforward (List.contains_iff_mem.mpr (unit_mem_of_mem (by decide) hmem))
    rw [usvString_slash] at hplain
    refine ⟨u.toLocation, ⟨hlocation ▸ parsePath_settled t, fun hprefix => ?_, fun hmem => ?_, ?_⟩, rfl⟩
    · exact htwo (Or.inl (List.isPrefixOf_iff_prefix.mpr hprefix))
    · exact hblocked (List.contains_iff_mem.mpr hmem)
    · rw [hlocation]
      exact backslash_not_mem fun hmem => hplain (ht hmem)

/-- **The way back never leaves the site**, whatever the text and the hosts: on every origin
it resolves to that origin, to none of the pages for signing in, and it is its own way back. -/
theorem return_path_stays (p : Parser String) (raw : Option JsString) :
    (∀ base, ∃ u, newUrl p (sanitizeReturnTo p raw) base = some u ∧ u.origin = base ∧
      u.pathname ∉ blockedReturnPaths) ∧
    sanitizeReturnTo p (some (sanitizeReturnTo p raw)) = sanitizeReturnTo p raw := by
  obtain ⟨l, hl, heq⟩ := returned p raw
  rw [heq]
  exact ⟨fun base => ⟨_, hl.resolves p base, rfl, hl.allowed⟩, hl.kept p⟩

end BetterDecision
