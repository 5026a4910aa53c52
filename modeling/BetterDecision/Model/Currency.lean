import Mathlib.Data.List.DropRight
import BetterDecision.Lib.Runs

/-!
# One currency per organisation

`currency_service`, as far as it decides without the database: which codes exist, how a
code is spelled, and what the account already there says about a new account's currency.

`str.strip` and `str.upper` cover all of Unicode. Nothing here depends on what they do
beyond the letters A–Z, so they are a parameter that is only pinned down there.
-/

namespace BetterDecision

/-- A refusal as a router answers it. -/
structure HttpError where
  status : Nat
  detail : String
  deriving DecidableEq, Repr

/-- Nothing but the letters A–Z. -/
def CapitalLetters (s : String) : Prop := ∀ c ∈ s.toList, 'A' ≤ c ∧ c ≤ 'Z'

instance (s : String) : Decidable (CapitalLetters s) :=
  inferInstanceAs (Decidable (∀ c ∈ s.toList, 'A' ≤ c ∧ c ≤ 'Z'))

theorem isWhitespace_capital {c : Char} (h : 'A' ≤ c ∧ c ≤ 'Z') : c.isWhitespace = false := by
  have hne : ∀ d : Char, d.toNat < 65 → c ≠ d := by
    intro d hd hcd
    have hA : 65 ≤ c.toNat := h.1
    rw [hcd] at hA
    omega
  simp only [Char.isWhitespace, hne ' ' (by decide), hne '\t' (by decide), hne '\r' (by decide),
    hne '\n' (by decide), decide_false, Bool.or_false]

theorem toUpper_capital {c : Char} (h : 'A' ≤ c ∧ c ≤ 'Z') : c.toUpper = c := by
  have hZ : c.toNat ≤ 90 := h.2
  have hlow : ¬ ('a'.val ≤ c.val ∧ c.val ≤ 'z'.val) := by
    intro hc
    have ha : 97 ≤ c.toNat := hc.1
    omega
  exact dif_neg hlow

/-- The two methods of `str` a currency code goes through. -/
structure StrMethods where
  strip : String → String
  upper : String → String
  strip_capitals : ∀ s, CapitalLetters s → strip s = s
  upper_capitals : ∀ s, CapitalLetters s → upper s = s

/-- What the two do to the letters and the blanks of ASCII. -/
def asciiStr : StrMethods where
  strip s := String.ofList ((s.toList.dropWhile Char.isWhitespace).rdropWhile Char.isWhitespace)
  upper s := String.ofList (s.toList.map Char.toUpper)
  strip_capitals s h := by
    have hno : ∀ c ∈ s.toList, c.isWhitespace = false := fun c hc => isWhitespace_capital (h c hc)
    rw [List.dropWhile_eq_self_iff.mpr fun hl => ?_, List.rdropWhile_eq_self_iff.mpr fun hl => ?_, String.ofList_toList]
    · simpa using hno _ (List.getLast_mem hl)
    · simpa using hno _ (List.getElem_mem hl)
  upper_capitals s h := by
    rw [show s.toList.map Char.toUpper = s.toList.map id from
      List.map_congr_left fun c hc => toUpper_capital (h c hc), List.map_id, String.ofList_toList]

def iso4217Currencies : List String :=
  ["AED", "AFN", "ALL", "AMD", "AOA", "ARS", "AUD", "AWG", "AZN", "BAM",
   "BBD", "BDT", "BGN", "BHD", "BIF", "BMD", "BND", "BOB", "BRL", "BSD",
   "BTN", "BWP", "BYN", "BZD", "CAD", "CDF", "CHF", "CLP", "CNY", "COP",
   "CRC", "CUP", "CVE", "CZK", "DJF", "DKK", "DOP", "DZD", "EGP", "ERN",
   "ETB", "EUR", "FJD", "FKP", "GBP", "GEL", "GHS", "GIP", "GMD", "GNF",
   "GTQ", "GYD", "HKD", "HNL", "HTG", "HUF", "IDR", "ILS", "INR", "IQD",
   "IRR", "ISK", "JMD", "JOD", "JPY", "KES", "KGS", "KHR", "KMF", "KPW",
   "KRW", "KWD", "KYD", "KZT", "LAK", "LBP", "LKR", "LRD", "LSL", "LYD",
   "MAD", "MDL", "MGA", "MKD", "MMK", "MNT", "MOP", "MRU", "MUR", "MVR",
   "MWK", "MXN", "MYR", "MZN", "NAD", "NGN", "NIO", "NOK", "NPR", "NZD",
   "OMR", "PAB", "PEN", "PGK", "PHP", "PKR", "PLN", "PYG", "QAR", "RON",
   "RSD", "RUB", "RWF", "SAR", "SBD", "SCR", "SDG", "SEK", "SGD", "SHP",
   "SLE", "SOS", "SRD", "SSP", "STN", "SVC", "SYP", "SZL", "THB", "TJS",
   "TMT", "TND", "TOP", "TRY", "TTD", "TWD", "TZS", "UAH", "UGX", "USD",
   "UYU", "UZS", "VED", "VES", "VND", "VUV", "WST", "XAF", "XCD", "XCG",
   "XOF", "XPF", "YER", "ZAR", "ZMW", "ZWG"]

def StrMethods.normaliseCurrency (str : StrMethods) (raw : String) : String := str.upper (str.strip raw)

/-- What `AccountCreate` lets through: the spelling is normalised before the code is
looked up. -/
def currencyMustBeIso4217 (str : StrMethods) (raw : String) : Except HttpError String :=
  let code := str.normaliseCurrency raw
  if code ∈ iso4217Currencies then .ok code
  else .error ⟨422, s!"'{raw}' is not a supported ISO 4217 currency code"⟩

/-- The verdict of `assert_org_currency_allows` on a currency, given that of an account of
the org if it has one: what to set `primary_currency` to, if anything. -/
def orgCurrencyVerdict (str : StrMethods) (existing : Option String) (currency : String) :
    Except HttpError (Option String) :=
  match existing with
  | none => .ok (some (str.normaliseCurrency currency))
  | some held =>
    if str.normaliseCurrency held ≠ str.normaliseCurrency currency then
      .error ⟨409, s!"This organization's accounts are in {str.normaliseCurrency held}. " ++
        "An organization cannot hold accounts in more than one currency, " ++
        "because totals across currencies would be meaningless. " ++
        s!"Create the account in {str.normaliseCurrency held}."⟩
    else .ok none

theorem iso4217_capitals : ∀ code ∈ iso4217Currencies, CapitalLetters code := by
  have hall : iso4217Currencies.all (fun code => code.toList.all (fun c => decide ('A' ≤ c ∧ c ≤ 'Z'))) = true := by
    decide +kernel
  intro code hcode c hc
  exact of_decide_eq_true (List.all_eq_true.mp (List.all_eq_true.mp hall code hcode) c hc)

/-- A supported code is its own normal form. -/
theorem normaliseCurrency_of_supported (str : StrMethods) {code : String} (h : code ∈ iso4217Currencies) :
    str.normaliseCurrency code = code := by
  have hcap := iso4217_capitals code h
  rw [StrMethods.normaliseCurrency, str.strip_capitals code hcap, str.upper_capitals code hcap]

theorem currencyMustBeIso4217_ok {str : StrMethods} {raw code : String}
    (h : currencyMustBeIso4217 str raw = .ok code) :
    code = str.normaliseCurrency raw ∧ code ∈ iso4217Currencies := by
  simp only [currencyMustBeIso4217] at h
  split at h
  · rename_i hmem
    obtain rfl := Except.ok.inj h
    exact ⟨rfl, hmem⟩
  · cases h

end BetterDecision
