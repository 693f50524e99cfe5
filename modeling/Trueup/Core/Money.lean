import Trueup.Core.Errors
import Trueup.Lib.Rounding
import Trueup.Lib.Transaction

/-! # Money, units and prices

The arithmetic of `core/money.py`. Every operation computes in the default decimal context, 28
significant digits half-even (`context`), and hands the result to the constructor, which quantizes
it half-even to the type's scale and refuses what does not fit (`ofDecimal`).

The lemmas `*_ok` say what a result is when there is one: sums and differences are exact, and
`Price * Units` is the exact product rounded once (`times_ok`): a product that fits a `Money` has at
most 26 digits, so that the context never rounds it first. A quotient may have any number of digits,
but it is never so near a tie that the context could move it there (`roundHalfEven_context_div`).
Together (`crossDimension_rounding`): the operations across dimensions round once. -/

namespace Trueup.Core

open Trueup.Lib Trueup.Lib.Rounding

/-- The number of digits of the default decimal context. -/
def contextPrecision : ℕ := 28

/-- The default decimal context: 28 significant digits, `ROUND_HALF_EVEN`. -/
def context (v : ℚ) : ℚ := roundSig 10 contextPrecision v

namespace QuantizedDecimal

variable {s p : ℕ}

/-- The constructor on a finite decimal. `quantize` raises `InvalidOperation` when the result has
more digits than the context; `_validate_precision` raises `ValueError`. -/
def ofDecimal (v : ℚ) : Except Error (QuantizedDecimal s p) :=
  let n := roundHalfEven (v * 10 ^ s)
  if 10 ^ contextPrecision ≤ |n| then .error .invalidOperation
  else if h : |n| < 10 ^ p then .ok ⟨n, h⟩
  else .error .valueError

/-- The constructor on a text of a message: a missing text, one `Decimal` cannot read and a
non-finite one (`none`) all raise `ValueError`. -/
def ofText (v : Option ℚ) : Except Error (QuantizedDecimal s p) :=
  match v with
  | none => .error .valueError
  | some v => ofDecimal v

/-- `__add__`. -/
def add (a b : QuantizedDecimal s p) : Except Error (QuantizedDecimal s p) :=
  ofDecimal (context (a.value + b.value))

/-- `__sub__`. -/
def sub (a b : QuantizedDecimal s p) : Except Error (QuantizedDecimal s p) :=
  ofDecimal (context (a.value - b.value))

/-- A sum of a `NUMERIC` column, read back by `process_result_value`: the database adds exactly. -/
def ofSum (n : ℤ) : Except Error (QuantizedDecimal s p) := ofDecimal ((n : ℚ) / 10 ^ s)

end QuantizedDecimal

/-- `Price.__mul__` by `Units`: `Price * Units -> Money`. -/
def Price.times (price : Price) (quantity : Units) : Except Error Money :=
  QuantizedDecimal.ofDecimal (context (price.value * quantity.value))

/-- `Units.__mul__` by a `Price`: `Units * Price -> Money`. -/
def Units.times (quantity : Units) (price : Price) : Except Error Money :=
  QuantizedDecimal.ofDecimal (context (quantity.value * price.value))

/-- `Units.__mul__` by an `int` or `Decimal`. -/
def Units.scale (quantity : Units) (ratio : ℚ) : Except Error Units :=
  QuantizedDecimal.ofDecimal (context (quantity.value * ratio))

/-- `Money.__mul__` by an `int` or `Decimal`. -/
def Money.scale (amount : Money) (ratio : ℚ) : Except Error Money :=
  QuantizedDecimal.ofDecimal (context (amount.value * ratio))

/-- `Money.__truediv__` by `Units`: `Money / Units -> Price`. -/
def Money.perUnit (amount : Money) (quantity : Units) : Except Error Price :=
  if quantity.quanta = 0 then .error .zeroDivision
  else QuantizedDecimal.ofDecimal (context (amount.value / quantity.value))

/-- `Money.__truediv__` by `Price`: `Money / Price -> Units`. -/
def Money.perPrice (amount : Money) (price : Price) : Except Error Units :=
  if price.quanta = 0 then .error .zeroDivision
  else QuantizedDecimal.ofDecimal (context (amount.value / price.value))

/-- `Money.__truediv__` by `Money`: a ratio. -/
def Money.ratio (amount base : Money) : Except Error ℚ :=
  if base.quanta = 0 then .error .zeroDivision
  else .ok (context (amount.value / base.value))

/-- The exact product of a price and a quantity, rounded once to the quanta of `Money`. -/
def notional (price : Price) (quantity : Units) : ℤ :=
  roundHalfEven (((price.quanta * quantity.quanta : ℤ) : ℚ) / 10 ^ 8)

/-- A number of unit quanta multiplied by a ratio, in the decimal context, rounded to quanta. -/
def scaledQuanta (n : ℤ) (ratio : ℚ) : ℤ :=
  roundHalfEven (context ((n : ℚ) / 10 ^ 6 * ratio) * 10 ^ 6)

/-! ### What a result is -/

namespace QuantizedDecimal

variable {s p : ℕ}

theorem ofDecimal_ok (hp : p ≤ 28) {v : ℚ} {a : QuantizedDecimal s p} :
    ofDecimal v = .ok a ↔ a.quanta = roundHalfEven (v * 10 ^ s) := by
  have hpow : (10 : ℤ) ^ p ≤ 10 ^ contextPrecision := pow_le_pow_right₀ (by norm_num) hp
  simp only [ofDecimal]
  split_ifs with h1 h2
  · constructor
    · intro h; cases h
    · intro h
      have := a.fits
      rw [h] at this
      omega
  · constructor
    · intro h; cases h; rfl
    · intro h; exact congrArg Except.ok (ext h.symm)
  · constructor
    · intro h; cases h
    · intro h
      exact absurd (h ▸ a.fits) h2

theorem fails_ofDecimal {P : Error → Prop} (hinvalid : P .invalidOperation) (hvalue : P .valueError)
    (v : ℚ) : Transaction.Fails P (ofDecimal v : Except Error (QuantizedDecimal s p)) := by
  unfold ofDecimal
  dsimp only
  split_ifs
  · exact Transaction.fails_error hinvalid
  · exact Transaction.fails_ok _
  · exact Transaction.fails_error hvalue

theorem ofSum_ok (hp : p ≤ 28) {n : ℤ} {a : QuantizedDecimal s p} :
    ofSum n = .ok a ↔ a.quanta = n := by
  rw [ofSum, ofDecimal_ok hp]
  have : (n : ℚ) / 10 ^ s * 10 ^ s = n := by field_simp
  rw [this, roundHalfEven_intCast]

/-- A number of quanta below `10 ^ 28` passes the context unchanged; above, it stays above. -/
theorem roundHalfEven_context_quanta (hs : 0 < s) (hs' : s ≤ 28) (n : ℤ) :
    (|n| < 10 ^ 28 → roundHalfEven (context ((n : ℚ) / 10 ^ s) * 10 ^ s) = n) ∧
      (10 ^ 28 ≤ |n| → 10 ^ 28 ≤ |roundHalfEven (context ((n : ℚ) / 10 ^ s) * 10 ^ s)|) := by
  have h10 : (0 : ℚ) < 10 ^ s := by positivity
  have hval : |(n : ℚ) / 10 ^ s| = |(n : ℚ)| / 10 ^ s := by rw [abs_div, abs_of_pos h10]
  have hexp : (10 : ℚ) ^ (28 - s) * 10 ^ s = 10 ^ 28 := by
    rw [← pow_add]; congr 1; omega
  constructor
  · intro hn
    have hlt : |(n : ℚ) / 10 ^ s| < ((10 : ℕ) : ℚ) ^ (28 - s) := by
      rw [hval, div_lt_iff₀ h10]
      push_cast
      rw [hexp]
      exact_mod_cast hn
    have hctx : context ((n : ℚ) / 10 ^ s) = (n : ℚ) / 10 ^ s := by
      refine roundSig_eq_self (by norm_num) (m := 28 - s) (k := s)
        (by unfold contextPrecision; omega) hlt ⟨n, ?_⟩
      push_cast
      field_simp
    rw [hctx, div_mul_cancel₀ _ h10.ne', roundHalfEven_intCast]
  · intro hn
    have hle : ((10 : ℕ) : ℚ) ^ (28 - s) ≤ |(n : ℚ) / 10 ^ s| := by
      rw [hval, le_div_iff₀ h10]
      push_cast
      rw [hexp]
      exact_mod_cast hn
    have h1 : ((10 : ℕ) : ℚ) ^ (28 - s) ≤ |context ((n : ℚ) / 10 ^ s)| :=
      le_abs_roundSig (by norm_num) (by unfold contextPrecision; omega) hle
    rw [abs_roundHalfEven]
    refine le_roundHalfEven ?_
    rw [abs_mul, abs_of_pos h10]
    push_cast at h1 ⊢
    calc (10 : ℚ) ^ 28 = 10 ^ (28 - s) * 10 ^ s := hexp.symm
      _ ≤ _ := mul_le_mul_of_nonneg_right h1 h10.le

theorem ofDecimal_context_ok (hs : 0 < s) (hs' : s ≤ 28) (hp : p ≤ 28) {n : ℤ}
    {a : QuantizedDecimal s p} : ofDecimal (context ((n : ℚ) / 10 ^ s)) = .ok a ↔ a.quanta = n := by
  rw [ofDecimal_ok hp]
  obtain ⟨hlt, hge⟩ := roundHalfEven_context_quanta hs hs' n
  have hpow : (10 : ℤ) ^ p ≤ 10 ^ 28 := pow_le_pow_right₀ (by norm_num) hp
  have hfit := a.fits
  by_cases hn : |n| < 10 ^ 28
  · rw [hlt hn]
  · have hge' := hge (not_lt.mp hn)
    constructor
    · intro h
      rw [← h] at hge'
      omega
    · intro h
      rw [h] at hfit
      omega

theorem add_ok (hs : 0 < s) (hs' : s ≤ 28) (hp : p ≤ 28) {a b c : QuantizedDecimal s p} :
    a.add b = .ok c ↔ c.quanta = a.quanta + b.quanta := by
  have : a.value + b.value = ((a.quanta + b.quanta : ℤ) : ℚ) / 10 ^ s := by
    unfold value; push_cast; ring
  rw [add, this, ofDecimal_context_ok hs hs' hp]

theorem sub_ok (hs : 0 < s) (hs' : s ≤ 28) (hp : p ≤ 28) {a b c : QuantizedDecimal s p} :
    a.sub b = .ok c ↔ c.quanta = a.quanta - b.quanta := by
  have : a.value - b.value = ((a.quanta - b.quanta : ℤ) : ℚ) / 10 ^ s := by
    unfold value; push_cast; ring
  rw [sub, this, ofDecimal_context_ok hs hs' hp]

theorem ofDecimal_neg (hs : 0 < s) (hs' : s ≤ 28) (hp : p ≤ 28) (a : QuantizedDecimal s p) :
    ofDecimal (context (-a.value)) = .ok a.neg := by
  have : -a.value = ((-a.quanta : ℤ) : ℚ) / 10 ^ s := by
    unfold value; push_cast; ring
  rw [this, ofDecimal_context_ok hs hs' hp, quanta_neg]

end QuantizedDecimal

open QuantizedDecimal

theorem Money.add_ok {a b c : Money} : a.add b = .ok c ↔ c.quanta = a.quanta + b.quanta :=
  QuantizedDecimal.add_ok (by norm_num) (by norm_num) (by norm_num)

theorem Money.sub_ok {a b c : Money} : a.sub b = .ok c ↔ c.quanta = a.quanta - b.quanta :=
  QuantizedDecimal.sub_ok (by norm_num) (by norm_num) (by norm_num)

theorem Money.ofSum_ok {n : ℤ} {a : Money} : ofSum n = .ok a ↔ a.quanta = n :=
  QuantizedDecimal.ofSum_ok (by norm_num)

theorem Units.add_ok {a b c : Units} : a.add b = .ok c ↔ c.quanta = a.quanta + b.quanta :=
  QuantizedDecimal.add_ok (by norm_num) (by norm_num) (by norm_num)

theorem Units.sub_ok {a b c : Units} : a.sub b = .ok c ↔ c.quanta = a.quanta - b.quanta :=
  QuantizedDecimal.sub_ok (by norm_num) (by norm_num) (by norm_num)

theorem Units.scale_ok {quantity q : Units} {ratio : ℚ} :
    Units.scale quantity ratio = .ok q ↔ q.quanta = scaledQuanta quantity.quanta ratio :=
  ofDecimal_ok (by norm_num)

/-- **The product of a price and a quantity** is the exact one, rounded once. -/
theorem Price.times_ok {price : Price} {quantity : Units} {amount : Money} :
    Price.times price quantity = .ok amount ↔ amount.quanta = notional price quantity := by
  set z : ℤ := price.quanta * quantity.quanta with hz
  have hval : price.value * quantity.value = (z : ℚ) / 10 ^ 12 := by
    unfold value; rw [hz]; push_cast; ring
  have hnot : notional price quantity = roundHalfEven ((z : ℚ) / 10 ^ 8) := by rw [hz]; rfl
  rw [Price.times, ofDecimal_ok (by norm_num), hval, hnot]
  by_cases hlt : |(z : ℚ) / 10 ^ 12| < ((10 : ℕ) : ℚ) ^ 14
  · -- at most 26 digits: the context does not round
    have hctx : context ((z : ℚ) / 10 ^ 12) = (z : ℚ) / 10 ^ 12 := by
      refine roundSig_eq_self (by norm_num) (m := 14) (k := 12)
        (by unfold contextPrecision; omega) hlt ⟨z, ?_⟩
      push_cast
      field_simp
    rw [hctx, show (z : ℚ) / 10 ^ 12 * 10 ^ 4 = (z : ℚ) / 10 ^ 8 by ring]
  · -- out of range with and without the context's rounding
    have hge : ((10 : ℕ) : ℚ) ^ 14 ≤ |(z : ℚ) / 10 ^ 12| := not_lt.mp hlt
    have hctx : ((10 : ℕ) : ℚ) ^ 14 ≤ |context ((z : ℚ) / 10 ^ 12)| :=
      le_abs_roundSig (by norm_num) (by unfold contextPrecision; omega) hge
    have h1 : 10 ^ 18 ≤ |roundHalfEven (context ((z : ℚ) / 10 ^ 12) * 10 ^ 4)| := by
      rw [abs_roundHalfEven]
      refine le_roundHalfEven ?_
      rw [abs_mul, abs_of_pos (by norm_num : (0 : ℚ) < 10 ^ 4)]
      push_cast at hctx ⊢
      linarith
    have h2 : 10 ^ 18 ≤ |roundHalfEven ((z : ℚ) / 10 ^ 8)| := by
      rw [abs_roundHalfEven]
      refine le_roundHalfEven ?_
      rw [show (z : ℚ) / 10 ^ 8 = (z : ℚ) / 10 ^ 12 * 10 ^ 4 by ring, abs_mul,
        abs_of_pos (by norm_num : (0 : ℚ) < 10 ^ 4)]
      push_cast at hge ⊢
      linarith
    have hfit := amount.fits
    constructor <;> intro h <;> rw [h] at hfit <;> omega

theorem Units.times_eq (quantity : Units) (price : Price) :
    Units.times quantity price = Price.times price quantity := by
  rw [Units.times, Price.times, mul_comm]

/-- The decimal `a` is the number `v` rounded half-even to the places of its type: there is none
nearer, and of two equally near ones it is the even one. -/
def RoundsTo {s p : ℕ} (v : ℚ) (a : QuantizedDecimal s p) : Prop :=
  |a.value - v| ≤ 1 / 2 / 10 ^ s ∧ (|a.value - v| = 1 / 2 / 10 ^ s → a.quanta % 2 = 0)

theorem roundsTo_iff {s p : ℕ} {v : ℚ} {a : QuantizedDecimal s p} :
    RoundsTo v a ↔ a.quanta = roundHalfEven (v * 10 ^ s) := by
  have h10 : (0 : ℚ) < 10 ^ s := by positivity
  have hdist : |a.value - v| = |(a.quanta : ℚ) - v * 10 ^ s| / 10 ^ s := by
    rw [← abs_of_pos h10, ← abs_div, abs_of_pos h10, value]
    congr 1
    field_simp
  unfold RoundsTo
  rw [hdist, div_le_div_iff_of_pos_right h10, div_left_inj' h10.ne']
  constructor
  · rintro ⟨hnear, htie⟩
    exact (roundHalfEven_eq hnear htie).symm
  · intro h
    rw [h]
    exact ⟨abs_sub_roundHalfEven _, roundHalfEven_tie⟩

/-- An amount divided by a decimal of six places, to six places: the dividend has at most 26 digits
in quanta of the result, so that the context's rounding is not seen. -/
theorem roundHalfEven_context_div {p : ℕ} (amount : Money) {d : QuantizedDecimal 6 p}
    (hd : d.quanta ≠ 0) :
    roundHalfEven (context (amount.value / d.value) * 10 ^ 6) =
      roundHalfEven (amount.value / d.value * 10 ^ 6) := by
  have hdigits : |amount.quanta * 10 ^ 8| < ((10 : ℕ) : ℤ) ^ 27 := by
    have hfit := amount.fits
    rw [abs_mul]
    norm_num at hfit ⊢
    omega
  have hval : amount.value / d.value * ((10 : ℕ) : ℚ) ^ 6 =
      ((amount.quanta * 10 ^ 8 : ℤ) : ℚ) / d.quanta := by
    have : (d.quanta : ℚ) ≠ 0 := by exact_mod_cast hd
    unfold value
    push_cast
    field_simp
    norm_num
  have hshift : context (amount.value / d.value) * ((10 : ℕ) : ℚ) ^ 6 =
      roundSig 10 (27 + 1) (((amount.quanta * 10 ^ 8 : ℤ) : ℚ) / d.quanta) := by
    rw [← hval]
    exact (roundSig_mul_pow (by norm_num) contextPrecision 6 _).symm
  have hround := roundHalfEven_roundSig_div (by norm_num) (by norm_num) hd hdigits
  rw [← hshift, ← hval] at hround
  exact_mod_cast hround

theorem Money.perUnit_ok {amount : Money} {quantity : Units} {price : Price} :
    Money.perUnit amount quantity = .ok price ↔
      quantity.quanta ≠ 0 ∧ price.quanta = roundHalfEven (amount.value / quantity.value * 10 ^ 6) := by
  unfold Money.perUnit
  split_ifs with h0
  · constructor
    · intro h; cases h
    · intro h; exact absurd h0 h.1
  · rw [ofDecimal_ok (by norm_num), roundHalfEven_context_div amount h0]
    exact (and_iff_right h0).symm

theorem Money.perPrice_ok {amount : Money} {price : Price} {quantity : Units} :
    Money.perPrice amount price = .ok quantity ↔
      price.quanta ≠ 0 ∧ quantity.quanta = roundHalfEven (amount.value / price.value * 10 ^ 6) := by
  unfold Money.perPrice
  split_ifs with h0
  · constructor
    · intro h; cases h
    · intro h; exact absurd h0 h.1
  · rw [ofDecimal_ok (by norm_num), roundHalfEven_context_div amount h0]
    exact (and_iff_right h0).symm

/-- **Arithmetic across the dimensions is rounded once**: each operation returns the exact result
rounded half-even to the places of the type, whenever that fits the type. -/
theorem crossDimension_rounding (amount : Money) (quantity : Units) (price : Price) :
    (∀ result, Price.times price quantity = .ok result ↔
        RoundsTo (price.value * quantity.value) result) ∧
      (∀ result, Units.times quantity price = .ok result ↔
        RoundsTo (quantity.value * price.value) result) ∧
      (∀ result, Money.perUnit amount quantity = .ok result ↔
        quantity.quanta ≠ 0 ∧ RoundsTo (amount.value / quantity.value) result) ∧
      (∀ result, Money.perPrice amount price = .ok result ↔
        price.quanta ≠ 0 ∧ RoundsTo (amount.value / price.value) result) := by
  have htimes : ∀ result : Money, Price.times price quantity = .ok result ↔
      RoundsTo (price.value * quantity.value) result := by
    intro result
    have hexact : price.value * quantity.value * 10 ^ 4 =
        ((price.quanta * quantity.quanta : ℤ) : ℚ) / 10 ^ 8 := by
      unfold value
      push_cast
      ring
    rw [Price.times_ok, roundsTo_iff, hexact, notional]
  refine ⟨htimes, fun result => ?_, fun result => ?_, fun result => ?_⟩
  · rw [Units.times_eq, htimes, mul_comm]
  · rw [Money.perUnit_ok, roundsTo_iff]
  · rw [Money.perPrice_ok, roundsTo_iff]

theorem scaledQuanta_pos {n : ℤ} {ratio : ℚ} (hn : 0 < n) (hratio : 1 < ratio) :
    0 < scaledQuanta n ratio := by
  have hn' : (1 : ℚ) ≤ n := by exact_mod_cast hn
  have hprod : (1 : ℚ) / 10 ^ 6 ≤ (n : ℚ) / 10 ^ 6 * ratio := by
    have h1 : (1 : ℚ) / 10 ^ 6 ≤ (n : ℚ) / 10 ^ 6 := by gcongr
    have h2 : (n : ℚ) / 10 ^ 6 * 1 ≤ (n : ℚ) / 10 ^ 6 * ratio := by gcongr
    linarith
  have hnonneg : (0 : ℚ) ≤ (n : ℚ) / 10 ^ 6 * ratio := le_trans (by positivity) hprod
  have hpow : ((10 : ℕ) : ℚ) ^ (-6 : ℤ) = 1 / 10 ^ 6 := by norm_num
  have hctx : (1 : ℚ) / 10 ^ 6 ≤ context ((n : ℚ) / 10 ^ 6 * ratio) := by
    have h := zpow_le_abs_roundSig (b := 10) (n := contextPrecision) (m := -6)
      (q := (n : ℚ) / 10 ^ 6 * ratio) (by norm_num) (by decide)
      (by rw [hpow, abs_of_nonneg hnonneg]; exact hprod)
    rw [hpow, abs_of_nonneg (roundSig_nonneg hnonneg)] at h
    exact h
  refine lt_of_lt_of_le one_pos (le_roundHalfEven ?_)
  calc ((1 : ℤ) : ℚ) = 1 / 10 ^ 6 * 10 ^ 6 := by norm_num
    _ ≤ context ((n : ℚ) / 10 ^ 6 * ratio) * 10 ^ 6 := by gcongr

theorem notional_nonneg {price : Price} {quantity : Units} (hp : 0 ≤ price.quanta)
    (hq : 0 ≤ quantity.quanta) : 0 ≤ notional price quantity := by
  refine roundHalfEven_nonneg ?_
  have : (0 : ℚ) ≤ ((price.quanta * quantity.quanta : ℤ) : ℚ) := by
    exact_mod_cast mul_nonneg hp hq
  positivity

end Trueup.Core
