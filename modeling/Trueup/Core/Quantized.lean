import Mathlib.Algebra.Order.Group.Unbundled.Int
import Mathlib.Data.Rat.Defs
import Mathlib.Tactic.Positivity

/-! # Quantized decimals

`_QuantizedDecimal` of `core/money.py`: a value with `scale` decimal places that fits a
`NUMERIC(precision, scale)` column. It is kept as the number of its quanta, so that a value out of
range cannot be built. -/

namespace Trueup.Core

/-- A number of quanta of `10 ^ -scale` with at most `precision` digits. -/
structure QuantizedDecimal (scale precision : ℕ) where
  quanta : ℤ
  fits : |quanta| < 10 ^ precision
  deriving DecidableEq

/-- A USD ledger amount, `NUMERIC(18,4)`. -/
abbrev Money := QuantizedDecimal 4 18

/-- A position quantity, `NUMERIC(28,6)`. -/
abbrev Units := QuantizedDecimal 6 28

/-- A per-unit price, `NUMERIC(18,6)`. -/
abbrev Price := QuantizedDecimal 6 18

namespace QuantizedDecimal

variable {s p : ℕ}

@[ext] theorem ext {a b : QuantizedDecimal s p} (h : a.quanta = b.quanta) : a = b := by
  cases a; cases b; cases h; rfl

/-- A value with so many quanta can be built exactly when they fit the column. -/
theorem exists_quanta {n : ℤ} : (∃ a : QuantizedDecimal s p, a.quanta = n) ↔ |n| < 10 ^ p := by
  constructor
  · rintro ⟨a, rfl⟩
    exact a.fits
  · intro h
    exact ⟨⟨n, h⟩, rfl⟩

/-- The number the quanta stand for. -/
def value (a : QuantizedDecimal s p) : ℚ := a.quanta / 10 ^ s

instance : Zero (QuantizedDecimal s p) := ⟨⟨0, by simp⟩⟩

@[simp] theorem quanta_zero : (0 : QuantizedDecimal s p).quanta = 0 := rfl

instance : LE (QuantizedDecimal s p) := ⟨fun a b => a.quanta ≤ b.quanta⟩

instance : LT (QuantizedDecimal s p) := ⟨fun a b => a.quanta < b.quanta⟩

instance (a b : QuantizedDecimal s p) : Decidable (a ≤ b) :=
  inferInstanceAs (Decidable (a.quanta ≤ b.quanta))

instance (a b : QuantizedDecimal s p) : Decidable (a < b) :=
  inferInstanceAs (Decidable (a.quanta < b.quanta))

theorem le_def {a b : QuantizedDecimal s p} : a ≤ b ↔ a.quanta ≤ b.quanta := Iff.rfl

theorem lt_def {a b : QuantizedDecimal s p} : a < b ↔ a.quanta < b.quanta := Iff.rfl

/-- `__neg__`. -/
def neg (a : QuantizedDecimal s p) : QuantizedDecimal s p := ⟨-a.quanta, by rw [abs_neg]; exact a.fits⟩

/-- `__abs__`. -/
def abs (a : QuantizedDecimal s p) : QuantizedDecimal s p := ⟨|a.quanta|, by rw [abs_abs]; exact a.fits⟩

@[simp] theorem quanta_neg (a : QuantizedDecimal s p) : a.neg.quanta = -a.quanta := rfl

/-- Python's `min`: the first argument unless the second is smaller. -/
def min (a b : QuantizedDecimal s p) : QuantizedDecimal s p := if b < a then b else a

@[simp] theorem quanta_min (a b : QuantizedDecimal s p) :
    (a.min b).quanta = Min.min a.quanta b.quanta := by
  unfold min
  split_ifs with h
  · rw [lt_def] at h; omega
  · rw [lt_def] at h; omega

end QuantizedDecimal

end Trueup.Core
