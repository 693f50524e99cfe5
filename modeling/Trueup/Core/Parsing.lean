import Mathlib.Data.Nat.Log
import Trueup.Core.Money

/-! # The constructor

`_QuantizedDecimal.__init__` of `core/money.py` on whatever it is handed, with `Decimal` as the
standard library reads it from a text, and the validator that `__get_pydantic_core_schema__` puts
around it. Pydantic turns a `ValueError` of the validator into a validation error and lets every
other exception through.

`quantize` stands outside the `try` and raises `InvalidOperation` when its result has more digits
than the context. `construct_total_iff`: the constructor is otherwise total, and that is so exactly
for the numbers whose quanta stay below `10 ^ 28 - 1 / 2`. -/

namespace Trueup.Core

open Trueup.Lib Trueup.Lib.Rounding Trueup.Lib.Transaction

/-! ### `Decimal` -/

/-- What a `Decimal` holds. -/
inductive Decimal
  | finite (negative : Bool) (coefficient : ℕ) (exponent : ℤ)
  /-- An infinity or a NaN. -/
  | special
  deriving DecidableEq, Repr

/-- The tables of Unicode that `Decimal` reads a text by. -/
structure Unicode where
  isSpace : Char → Bool
  /-- The value of a decimal digit. -/
  decimal : Char → Option ℕ

/-- The characters up to `'\x7f'`. -/
def Unicode.ascii : Unicode where
  isSpace c := (9 ≤ c.toNat && c.toNat ≤ 13) || (28 ≤ c.toNat && c.toNat ≤ 32)
  decimal c := if c.isDigit then some (c.toNat - '0'.toNat) else none

namespace Decimal

/-- `MAX_EMAX` of the `decimal` module. -/
def maxEmax : ℤ := 999999999999999999

/-- `MIN_ETINY` of the `decimal` module. -/
def minEtiny : ℤ := -1999999999999999997

/-- The number of a finite decimal. -/
def number : Decimal → Option ℚ
  | finite negative coefficient exponent =>
    some ((if negative then -1 else 1) * coefficient * 10 ^ exponent)
  | special => none

section Text
variable (unicode : Unicode)

/-- `digits`, and what comes after them. -/
def digits (text : List Char) : List ℕ × List Char :=
  let isDigit := fun c => (unicode.decimal c).isSome
  ((text.takeWhile isDigit).filterMap unicode.decimal, text.dropWhile isDigit)

/-- The number that digits stand for. -/
def ofDigits (digits : List ℕ) : ℕ := digits.foldl (fun n d => 10 * n + d) 0

/-- `[sign]`, and what comes after it. -/
def sign : List Char → Bool × List Char
  | '-' :: text => (true, text)
  | '+' :: text => (false, text)
  | text => (false, text)

/-- `[exponent-part]`, up to the end of the text. -/
def exponentPart : List Char → Option ℤ
  | [] => some 0
  | indicator :: text =>
    let (negative, text) := sign text
    let (digits, rest) := digits unicode text
    if indicator.toLower = 'e' ∧ digits ≠ [] ∧ rest = [] then
      some ((if negative then -1 else 1) * ofDigits digits)
    else none

/-- `decimal-part [exponent-part]`: an exponent out of the limits cannot be read. -/
def numericValue (negative : Bool) (text : List Char) : Option Decimal :=
  let (whole, rest) := digits unicode text
  let (fraction, rest) := match rest with
    | '.' :: rest => digits unicode rest
    | rest => ([], rest)
  if whole = [] ∧ fraction = [] then none
  else do
    let coefficient := ofDigits (whole ++ fraction)
    let exponent := (← exponentPart unicode rest) - fraction.length
    if minEtiny ≤ exponent ∧ exponent + Nat.log 10 coefficient ≤ maxEmax then
      some (finite negative coefficient exponent)
    else none

/-- `infinity` and `nan`, in any case of their letters. -/
def isSpecial (text : List Char) : Bool :=
  let lower := text.map Char.toLower
  let afterNan := if lower.take 3 = "nan".toList then some (text.drop 3)
    else if lower.take 4 = "snan".toList then some (text.drop 4) else none
  lower = "inf".toList || lower = "infinity".toList ||
    afterNan.any fun text => (digits unicode text).2.isEmpty

/-- `Decimal(text)`: blanks around the text and underscores in it are left out. `none` is the
`InvalidOperation` of a text that is no number. -/
def ofText (text : String) : Option Decimal :=
  let stripped := ((text.toList.dropWhile unicode.isSpace).reverse.dropWhile unicode.isSpace).reverse
  let (negative, text) := sign (stripped.filter (· ≠ '_'))
  if isSpecial unicode text then some special
  else numericValue unicode negative text

end Text

example : ofText Unicode.ascii " -1_0.50e+2\n" = some (finite true 1050 0) := by decide

end Decimal

/-! ### The constructor -/

/-- What the constructor of a type is handed. -/
inductive Value (s p : ℕ)
  | bool (b : Bool)
  | float
  /-- A value of the same type. -/
  | quantized (a : QuantizedDecimal s p)
  /-- A value of one of the other two types. -/
  | otherDimension
  | str (text : String)
  | int (n : ℤ)
  | decimal (d : Decimal)
  | other

namespace QuantizedDecimal

variable {s p : ℕ} (unicode : Unicode)

/-- `decimal_value`. -/
def decimalValue : Value s p → Except Error Decimal
  | .bool _ => .error .typeError
  | .float => .error .typeError
  | .quantized a => .ok (.finite (a.quanta < 0) a.quanta.natAbs (-s))
  | .otherDimension => .error .typeError
  | .str text => ofOption (Decimal.ofText unicode text) .valueError
  | .int n => .ok (.finite (n < 0) n.natAbs 0)
  | .decimal d => .ok d
  | .other => .error .typeError

/-- `quantize(self._quantum(), rounding=ROUND_HALF_EVEN)`, in quanta. -/
def quantize (s : ℕ) (v : ℚ) : Except Error ℤ :=
  let quantized := roundHalfEven (v * 10 ^ s)
  if 10 ^ contextPrecision ≤ |quantized| then .error .invalidOperation else .ok quantized

/-- `integer_digits`. -/
def integerDigits (s : ℕ) (quanta : ℤ) : ℕ := (toString (quanta.natAbs / 10 ^ s)).length

theorem integerDigits_le_iff {quanta : ℤ} (h : s < p) :
    integerDigits s quanta + s ≤ p ↔ |quanta| < 10 ^ p := by
  have hdigits : integerDigits s quanta ≤ p - s ↔ quanta.natAbs / 10 ^ s < 10 ^ (p - s) :=
    Nat.length_repr_le_iff (by omega)
  have hpow : 10 ^ (p - s) * 10 ^ s = 10 ^ p := by
    rw [← pow_add]
    congr 1
    omega
  have habs : |quanta| < 10 ^ p ↔ quanta.natAbs < 10 ^ p := by
    rw [Int.abs_eq_natAbs]
    exact_mod_cast Iff.rfl
  rw [Nat.div_lt_iff_lt_mul (by positivity), hpow, ← habs] at hdigits
  rw [← hdigits]
  omega

theorem fits_of_integerDigits {quanta : ℤ} (h : integerDigits s quanta + s ≤ p) :
    |quanta| < 10 ^ p := by
  have hpos : 0 < integerDigits s quanta := Nat.length_repr_pos
  exact (integerDigits_le_iff (by omega)).mp h

/-- `_validate_precision`. -/
def validatePrecision (quanta : ℤ) : Except Error (QuantizedDecimal s p) :=
  if h : integerDigits s quanta + s ≤ p then .ok ⟨quanta, fits_of_integerDigits h⟩
  else .error .valueError

/-- `__init__`. -/
def construct (value : Value s p) : Except Error (QuantizedDecimal s p) := do
  let decimalValue ← decimalValue unicode value
  let number ← ofOption decimalValue.number .valueError
  let quantized ← quantize s number
  validatePrecision quantized

/-- `validate`: a `TypeError` is raised as a `ValueError`. -/
def validate : Value s p → Except Error (QuantizedDecimal s p)
  | .quantized a => .ok a
  | value => (construct unicode value).mapError fun e => if e = .typeError then .valueError else e

/-! ### What it returns and what it raises -/

/-- The number a value is read as, if it is one. -/
def numberOf (value : Value s p) : Option ℚ :=
  match decimalValue unicode value with
  | .ok d => d.number
  | .error _ => none

theorem construct_of_number (hs : s < p) {value : Value s p} {v : ℚ}
    (h : numberOf unicode value = some v) : construct unicode value = ofDecimal v := by
  unfold numberOf at h
  cases hd : decimalValue unicode value with
  | error e => rw [hd] at h; cases h
  | ok d =>
    rw [hd] at h
    have hnumber : d.number = some v := h
    have hrun : construct unicode value = quantize s v >>= validatePrecision := by
      unfold construct
      rw [hd, show (Except.ok d >>= _ : Except Error (QuantizedDecimal s p)) =
        ofOption d.number .valueError >>= _ from rfl, hnumber]
      rfl
    rw [hrun]
    unfold quantize ofDecimal
    dsimp only
    split_ifs with hlarge hfits
    · rfl
    · exact dif_pos ((integerDigits_le_iff hs).mpr hfits)
    · exact dif_neg fun h => hfits ((integerDigits_le_iff hs).mp h)

/-- `ValueError` or `TypeError`. -/
def IsRefusal (e : Error) : Prop := e = .valueError ∨ e = .typeError

theorem fails_decimalValue (value : Value s p) : Fails IsRefusal (decimalValue unicode value) := by
  cases value with
  | bool | float | otherDimension | other => exact fails_error (Or.inr rfl)
  | quantized | int | decimal => exact fails_ok _
  | str => exact fails_ofOption (Or.inl rfl)

theorem construct_of_no_number {value : Value s p} (h : numberOf unicode value = none) :
    ∃ e, construct unicode value = .error e ∧ IsRefusal e := by
  unfold numberOf at h
  unfold construct
  cases hd : decimalValue unicode value with
  | error e => exact ⟨e, rfl, fails_decimalValue unicode value e hd⟩
  | ok d =>
    rw [hd] at h
    have hnumber : d.number = none := h
    refine ⟨.valueError, ?_, Or.inl rfl⟩
    rw [show (Except.ok d >>= _ : Except Error (QuantizedDecimal s p)) =
      ofOption d.number .valueError >>= _ from rfl, hnumber]
    rfl

theorem construct_quantized (hs : s < p) (hp : p ≤ 28) (a : QuantizedDecimal s p) :
    construct unicode (.quantized a) = .ok a := by
  have hnumber : numberOf unicode (.quantized a) = some a.value := by
    have hsigned : (if a.quanta < 0 then -1 else 1 : ℚ) * a.quanta.natAbs = a.quanta := by
      split_ifs with h
      · rw [Nat.cast_natAbs, abs_of_neg h]
        push_cast
        ring
      · rw [Nat.cast_natAbs, abs_of_nonneg (not_lt.mp h), one_mul]
    simp only [numberOf, decimalValue, Decimal.number, decide_eq_true_eq]
    rw [hsigned, zpow_neg, zpow_natCast, value, div_eq_mul_inv]
  rw [construct_of_number unicode hs hnumber, ofDecimal_ok hp, ← roundsTo_iff]
  unfold RoundsTo
  rw [sub_self, abs_zero]
  have hpos : (0 : ℚ) < 1 / 2 / 10 ^ s := by positivity
  exact ⟨hpos.le, fun h => absurd h hpos.ne⟩

/-- The validator raises what the constructor raises, a `TypeError` as a `ValueError`. -/
theorem fails_validate_iff (hs : s < p) (hp : p ≤ 28) (value : Value s p) :
    Fails (· = .valueError) (validate unicode value) ↔
      Fails IsRefusal (construct unicode value) := by
  have hmapped : ∀ x : Except Error (QuantizedDecimal s p),
      Fails (· = .valueError) (x.mapError fun e => if e = .typeError then .valueError else e) ↔
        Fails IsRefusal x := by
    intro x
    cases x with
    | ok a => exact iff_of_true (fails_ok a) (fails_ok a)
    | error e =>
      constructor
      · intro h e' he'
        cases he'
        have hmap : (if e = .typeError then Error.valueError else e) = .valueError := h _ rfl
        by_cases htype : e = .typeError
        · exact Or.inr htype
        · rw [if_neg htype] at hmap
          exact Or.inl hmap
      · intro h e' he'
        cases he'
        rcases h e rfl with rfl | rfl
        · rfl
        · rfl
  cases value with
  | quantized a =>
    rw [construct_quantized unicode hs hp]
    exact iff_of_true (fails_ok a) (fails_ok a)
  | bool b => exact hmapped (construct unicode (.bool b))
  | float => exact hmapped (construct unicode .float)
  | otherDimension => exact hmapped (construct unicode .otherDimension)
  | str text => exact hmapped (construct unicode (.str text))
  | int n => exact hmapped (construct unicode (.int n))
  | decimal d => exact hmapped (construct unicode (.decimal d))
  | other => exact hmapped (construct unicode .other)

/-- What is promised of the constructor and of the validator: a value is returned that is the number
rounded half-even to the places of the type, whenever that fits the type, and what is raised is a
`ValueError` or a `TypeError`, by the validator a `ValueError`. -/
def ParsesTotally (value : Value s p) : Prop :=
  (∀ a, construct unicode value = .ok a ↔ ∃ v, numberOf unicode value = some v ∧ RoundsTo v a) ∧
    Fails IsRefusal (construct unicode value) ∧ Fails (· = .valueError) (validate unicode value)

theorem contextPrecision_le_iff (v : ℚ) :
    10 ^ contextPrecision ≤ |roundHalfEven (v * 10 ^ s)| ↔ 10 ^ 28 - 1 / 2 ≤ |v| * 10 ^ s := by
  have h10 : (0 : ℚ) < 10 ^ s := by positivity
  rw [abs_roundHalfEven, le_roundHalfEven_iff_of_even (by decide), abs_mul, abs_of_pos h10]
  norm_num [contextPrecision]

/-- **Parsing is total** exactly below the digits of the context. -/
theorem construct_total_iff (hs : s < p) (hp : p ≤ 28) (value : Value s p) :
    ParsesTotally unicode value ↔
      ∀ v, numberOf unicode value = some v → |v| * 10 ^ s < 10 ^ 28 - 1 / 2 := by
  unfold ParsesTotally
  rw [fails_validate_iff unicode hs hp, and_self]
  cases hnumber : numberOf unicode value with
  | none =>
    obtain ⟨e, hfails, he⟩ := construct_of_no_number unicode hnumber
    rw [hfails]
    refine iff_of_true ⟨fun a => ?_, fails_error he⟩ fun v hv => by cases hv
    exact iff_of_false (fun h => by cases h) fun ⟨v, hv, _⟩ => by cases hv
  | some v =>
    rw [construct_of_number unicode hs hnumber]
    have hok : ∀ a : QuantizedDecimal s p,
        ofDecimal v = .ok a ↔ ∃ w, some v = some w ∧ RoundsTo w a := by
      intro a
      rw [ofDecimal_ok hp, ← roundsTo_iff]
      constructor
      · exact fun h => ⟨v, rfl, h⟩
      · rintro ⟨w, hw, h⟩
        cases hw
        exact h
    by_cases hlarge : 10 ^ contextPrecision ≤ |roundHalfEven (v * 10 ^ s)|
    · have hraises : (ofDecimal v : Except Error (QuantizedDecimal s p)) = .error .invalidOperation :=
        if_pos hlarge
      refine iff_of_false (fun h => ?_) fun h => ?_
      · rcases h.2 _ hraises with h | h
        · cases h
        · cases h
      · exact absurd (h v rfl) (not_lt.mpr ((contextPrecision_le_iff v).mp hlarge))
    · refine iff_of_true ⟨hok, ?_⟩ fun w hw => ?_
      · unfold ofDecimal
        dsimp only
        rw [if_neg hlarge]
        split_ifs
        · exact fails_ok _
        · exact fails_error (Or.inl rfl)
      · cases hw
        exact not_le.mp fun h => hlarge ((contextPrecision_le_iff v).mpr h)

/-- A text that is an amount. -/
theorem construct_total_iff_text :
    ParsesTotally Unicode.ascii (.str "12.34505" : Value 4 18) ↔
      ∀ v, numberOf Unicode.ascii (.str "12.34505" : Value 4 18) = some v →
        |v| * 10 ^ 4 < 10 ^ 28 - 1 / 2 :=
  construct_total_iff Unicode.ascii (by decide) (by decide) _

/-- A whole number of 25 digits: `quantize` raises `InvalidOperation`. -/
theorem construct_not_total : ¬ ∀ (unicode : Unicode),
    (∀ value : Value 4 18, ParsesTotally unicode value) ∧
      (∀ value : Value 6 28, ParsesTotally unicode value) ∧
      ∀ value : Value 6 18, ParsesTotally unicode value := by
  intro h
  have htotal := (h Unicode.ascii).1 (.int (10 ^ 24))
  have hraises : construct Unicode.ascii (.int (10 ^ 24) : Value 4 18) = .error .invalidOperation := by
    decide +kernel
  rcases htotal.2.1 _ hraises with h | h
  · cases h
  · cases h

end QuantizedDecimal

end Trueup.Core
