import Mathlib.Algebra.Order.Floor.Ring
import Mathlib.Data.Int.Log
import Mathlib.Data.Rat.Floor
import Mathlib.Tactic.FieldSimp
import Mathlib.Tactic.Linarith
import Mathlib.Tactic.Positivity
import Mathlib.Tactic.Ring

/-! # Rounding half to even

`roundHalfEven q` is the integer nearest to `q`, the even one of two equally near ones;
`roundSig b n q` keeps `n` significant digits of `q` in base `b`. These are the roundings of decimal
contexts (`b = 10`) and of binary floating point (`b = 2`) away from the exponent limits.

* `roundHalfEven_mono`, `roundHalfEven_neg`, `roundHalfEven_intCast`: it is monotone and odd, and
  fixes the integers; hence it does not cross an integer (`le_roundHalfEven`).
* `roundHalfEven_div`: a quotient of integers is rounded by its remainder.
* `roundSig_eq_self`: a number with few enough digits is kept; `zpow_le_abs_roundSig`: a power of
  the base below the number stays below it.
* `roundSig_roundSig`, `roundSig_fract`: the digits that are left are kept by a second rounding, and
  so are those behind the point.
* `roundHalfEven_roundSig_div`: significant digits first and the nearest integer then is one
  rounding, for a quotient of integers with fewer digits. -/

namespace Trueup.Lib.Rounding

/-- The nearest integer, ties to the even one. -/
def roundHalfEven (q : ℚ) : ℤ :=
  if q - ⌊q⌋ < 1 / 2 then ⌊q⌋
  else if 1 / 2 < q - ⌊q⌋ then ⌊q⌋ + 1
  else if ⌊q⌋ % 2 = 0 then ⌊q⌋ else ⌊q⌋ + 1

/-- `q` to `n` significant digits in base `b`, ties to even. -/
def roundSig (b n : ℕ) (q : ℚ) : ℚ :=
  if q = 0 then 0
  else roundHalfEven (q * (b : ℚ) ^ ((n : ℤ) - 1 - Int.log b |q|)) /
    (b : ℚ) ^ ((n : ℤ) - 1 - Int.log b |q|)

/-! ### The nearest integer -/

theorem abs_sub_roundHalfEven (q : ℚ) : |(roundHalfEven q : ℚ) - q| ≤ 1 / 2 := by
  have h0 : (⌊q⌋ : ℚ) ≤ q := Int.floor_le q
  have h1 : q < ⌊q⌋ + 1 := Int.lt_floor_add_one q
  rw [abs_le]
  unfold roundHalfEven
  split_ifs <;> push_cast <;> constructor <;> linarith

theorem roundHalfEven_intCast (n : ℤ) : roundHalfEven n = n := by
  unfold roundHalfEven
  simp

/-- A nearest integer that is even whenever there are two is the rounding. -/
theorem roundHalfEven_eq {q : ℚ} {n : ℤ} (h : |(n : ℚ) - q| ≤ 1 / 2)
    (htie : |(n : ℚ) - q| = 1 / 2 → n % 2 = 0) : roundHalfEven q = n := by
  have h0 : (⌊q⌋ : ℚ) ≤ q := Int.floor_le q
  have h1 : q < ⌊q⌋ + 1 := Int.lt_floor_add_one q
  rw [abs_le] at h
  have hlo : ⌊q⌋ ≤ n := by
    have : (⌊q⌋ : ℚ) - 1 < n := by linarith [h.1]
    have : ⌊q⌋ - 1 < n := by exact_mod_cast this
    omega
  have hhi : n ≤ ⌊q⌋ + 1 := by
    have : (n : ℚ) < ⌊q⌋ + 2 := by linarith [h.2]
    have : n < ⌊q⌋ + 2 := by exact_mod_cast this
    omega
  unfold roundHalfEven
  rcases (show n = ⌊q⌋ ∨ n = ⌊q⌋ + 1 by omega) with hn | hn
  · -- `n` is the floor: the fraction is at most one half
    have hfr : q - ⌊q⌋ ≤ 1 / 2 := by rw [hn] at h; linarith [h.1]
    split_ifs with c1 c2 c3
    · exact hn.symm
    · linarith
    · exact hn.symm
    · refine absurd (hn ▸ htie ?_) c3
      have hq : q - ⌊q⌋ = 1 / 2 := le_antisymm hfr (not_lt.mp c1)
      rw [hn, abs_sub_comm, hq]
      norm_num
  · -- `n` is the next integer: the fraction is at least one half
    have hfr : 1 / 2 ≤ q - ⌊q⌋ := by rw [hn] at h; push_cast at h; linarith [h.2]
    split_ifs with c1 c2 c3
    · linarith
    · exact hn.symm
    · have hq : q - ⌊q⌋ = 1 / 2 := le_antisymm (not_lt.mp c2) hfr
      have := htie (by
        rw [hn]; push_cast
        rw [show (⌊q⌋ : ℚ) + 1 - q = 1 / 2 by linarith]
        norm_num)
      omega
    · exact hn.symm

theorem roundHalfEven_tie {q : ℚ} (h : |(roundHalfEven q : ℚ) - q| = 1 / 2) :
    roundHalfEven q % 2 = 0 := by
  have h0 : (⌊q⌋ : ℚ) ≤ q := Int.floor_le q
  have h1 : q < ⌊q⌋ + 1 := Int.lt_floor_add_one q
  by_cases c1 : q - ⌊q⌋ < 1 / 2
  · have e : roundHalfEven q = ⌊q⌋ := by unfold roundHalfEven; rw [if_pos c1]
    rw [e, abs_sub_comm, abs_of_nonneg (by linarith)] at h
    linarith
  · by_cases c2 : 1 / 2 < q - ⌊q⌋
    · have e : roundHalfEven q = ⌊q⌋ + 1 := by
        unfold roundHalfEven; rw [if_neg c1, if_pos c2]
      rw [e] at h
      push_cast at h
      rw [abs_of_nonneg (by linarith)] at h
      linarith
    · by_cases c3 : ⌊q⌋ % 2 = 0
      · have e : roundHalfEven q = ⌊q⌋ := by
          unfold roundHalfEven; rw [if_neg c1, if_neg c2, if_pos c3]
        rw [e]; exact c3
      · have e : roundHalfEven q = ⌊q⌋ + 1 := by
          unfold roundHalfEven; rw [if_neg c1, if_neg c2, if_neg c3]
        rw [e]; omega

theorem roundHalfEven_neg (q : ℚ) : roundHalfEven (-q) = -roundHalfEven q := by
  have habs : |((-roundHalfEven q : ℤ) : ℚ) - -q| = |(roundHalfEven q : ℚ) - q| := by
    rw [← abs_neg]
    congr 1
    push_cast
    ring
  refine roundHalfEven_eq ?_ fun h => ?_
  · rw [habs]; exact abs_sub_roundHalfEven q
  · rw [habs] at h
    have := roundHalfEven_tie h
    omega

theorem roundHalfEven_mono {p q : ℚ} (h : p ≤ q) : roundHalfEven p ≤ roundHalfEven q := by
  by_contra hlt
  have hlt' : roundHalfEven q + 1 ≤ roundHalfEven p := by omega
  have hq := abs_le.mp (abs_sub_roundHalfEven q)
  have hp := abs_le.mp (abs_sub_roundHalfEven p)
  have hcast : (roundHalfEven q : ℚ) + 1 ≤ roundHalfEven p := by exact_mod_cast hlt'
  -- both roundings are at distance one half, from the same number
  have hqt : (roundHalfEven q : ℚ) - q = -(1 / 2) := by linarith [hq.1, hp.2]
  have hpt : (roundHalfEven p : ℚ) - p = 1 / 2 := by linarith [hq.1, hp.2]
  have heq : roundHalfEven p = roundHalfEven q + 1 := by
    have : (roundHalfEven p : ℚ) = roundHalfEven q + 1 := by linarith
    exact_mod_cast this
  have e1 := roundHalfEven_tie (q := q) (by rw [hqt, abs_neg]; norm_num)
  have e2 := roundHalfEven_tie (q := p) (by rw [hpt]; norm_num)
  omega

theorem le_roundHalfEven {q : ℚ} {n : ℤ} (h : (n : ℚ) ≤ q) : n ≤ roundHalfEven q := by
  rw [← roundHalfEven_intCast n]; exact roundHalfEven_mono h

theorem roundHalfEven_nonneg {q : ℚ} (h : 0 ≤ q) : 0 ≤ roundHalfEven q :=
  le_roundHalfEven (by simpa using h)

theorem roundHalfEven_eq_iff {q : ℚ} {n : ℤ} :
    roundHalfEven q = n ↔ |(n : ℚ) - q| ≤ 1 / 2 ∧ (|(n : ℚ) - q| = 1 / 2 → n % 2 = 0) := by
  constructor
  · rintro rfl
    exact ⟨abs_sub_roundHalfEven q, roundHalfEven_tie⟩
  · rintro ⟨hnear, htie⟩
    exact roundHalfEven_eq hnear htie

/-- **There and back**: a number of coarse steps, taken to fine ones (`r` coarse steps each) and
back, is the same. -/
theorem roundHalfEven_there_and_back {r : ℚ} (hpos : 0 < r) (hle : r ≤ 1) (n : ℤ) :
    roundHalfEven (roundHalfEven (n / r) * r) = n := by
  rcases hle.lt_or_eq with hlt | rfl
  · have hnear := abs_sub_roundHalfEven (n / r)
    have hdist : (n : ℚ) - roundHalfEven (n / r) * r = -((roundHalfEven (n / r) - n / r) * r) := by
      field_simp
      ring
    have hsmall : |(n : ℚ) - roundHalfEven (n / r) * r| < 1 / 2 := by
      rw [hdist, abs_neg, abs_mul, abs_of_pos hpos]
      nlinarith
    exact roundHalfEven_eq hsmall.le fun h => absurd h hsmall.ne
  · rw [div_one, mul_one, roundHalfEven_intCast, roundHalfEven_intCast]

theorem le_roundHalfEven_iff_of_even {n : ℤ} (hn : n % 2 = 0) {q : ℚ} :
    n ≤ roundHalfEven q ↔ (n : ℚ) - 1 / 2 ≤ q := by
  constructor
  · intro h
    have hcast : (n : ℚ) ≤ roundHalfEven q := by exact_mod_cast h
    have := (abs_le.mp (abs_sub_roundHalfEven q)).2
    linarith
  · intro h
    have htie : roundHalfEven ((n : ℚ) - 1 / 2) = n := by
      refine roundHalfEven_eq ?_ fun _ => hn
      rw [sub_sub_cancel, abs_of_pos (by norm_num)]
    rw [← htie]
    exact roundHalfEven_mono h

/-- The rounding stays at an integer up to half a unit above it, and at half a unit if it is
even. -/
theorem roundHalfEven_le_iff {n : ℤ} {q : ℚ} :
    roundHalfEven q ≤ n ↔ q < n + 1 / 2 ∨ q = n + 1 / 2 ∧ n % 2 = 0 := by
  have hnear := abs_le.mp (abs_sub_roundHalfEven q)
  constructor
  · intro h
    have hcast : (roundHalfEven q : ℚ) ≤ n := by exact_mod_cast h
    rcases (show q ≤ n + 1 / 2 by linarith [hnear.1]).lt_or_eq with hlt | heq
    · exact Or.inl hlt
    · refine Or.inr ⟨heq, ?_⟩
      have hround : (roundHalfEven q : ℚ) = n := by linarith [hnear.1]
      have htie := roundHalfEven_tie (q := q) (by
        rw [hround, heq, sub_add_cancel_left, abs_neg, abs_of_pos (by norm_num)])
      have : roundHalfEven q = n := by exact_mod_cast hround
      rwa [this] at htie
  · rintro (hlt | ⟨heq, heven⟩)
    · have hcast : (roundHalfEven q : ℚ) < n + 1 := by linarith [hnear.2]
      have : roundHalfEven q < n + 1 := by exact_mod_cast hcast
      omega
    · refine (roundHalfEven_eq ?_ fun _ => heven).le
      rw [heq, sub_add_cancel_left, abs_neg, abs_of_pos (by norm_num)]

/-- A quotient is rounded up when more than half of the divisor is left, or exactly half of it and the
quotient is odd. -/
theorem roundHalfEven_div {a b : ℤ} (hb : 0 < b) : roundHalfEven ((a : ℚ) / b) =
    a / b + if b < 2 * (a % b) ∨ b = 2 * (a % b) ∧ a / b % 2 = 1 then 1 else 0 := by
  have hbq : (0 : ℚ) < b := by exact_mod_cast hb
  have hlo := Int.emod_nonneg a hb.ne'
  have hhi := Int.emod_lt_of_pos a hb
  have hdist : ∀ k : ℤ, |((a / b + k : ℤ) : ℚ) - a / b| = ((|b * k - a % b| : ℤ) : ℚ) / b := by
    intro k
    have hquotient : ((a / b + k : ℤ) : ℚ) - a / b = ((b * k - a % b : ℤ) : ℚ) / b := by
      have hdiv : (b : ℚ) * (a / b : ℤ) + (a % b : ℤ) = a := by
        exact_mod_cast Int.mul_ediv_add_emod a b
      rw [eq_div_iff hbq.ne', sub_mul, div_mul_cancel₀ _ hbq.ne', ← hdiv]
      push_cast
      ring
    rw [hquotient, abs_div, abs_of_pos hbq, Int.cast_abs]
  refine roundHalfEven_eq ?_ ?_
  · rw [hdist, div_le_div_iff₀ hbq two_pos, one_mul]
    have : |b * (if b < 2 * (a % b) ∨ b = 2 * (a % b) ∧ a / b % 2 = 1 then 1 else 0) - a % b| * 2 ≤
        b := by
      split_ifs with hup
      · rw [mul_one, abs_of_nonneg (by omega)]
        omega
      · rw [mul_zero, zero_sub, abs_neg, abs_of_nonneg hlo]
        omega
    exact_mod_cast this
  · rw [hdist, div_eq_div_iff hbq.ne' two_ne_zero, one_mul]
    intro htie
    have htie : |b * (if b < 2 * (a % b) ∨ b = 2 * (a % b) ∧ a / b % 2 = 1 then 1 else 0) -
        a % b| * 2 = b := by
      exact_mod_cast htie
    split_ifs at htie ⊢ with hup
    · rw [mul_one, abs_of_nonneg (by omega)] at htie
      omega
    · rw [mul_zero, zero_sub, abs_neg, abs_of_nonneg hlo] at htie
      omega

/-! ### Significant digits -/

theorem roundSig_zero (b n : ℕ) : roundSig b n 0 = 0 := by simp [roundSig]

/-- A number of at most `n` digits is kept: `m` digits before the point would do, and `k` after. -/
theorem roundSig_eq_self {b n : ℕ} (hb : 1 < b) {q : ℚ} {m k : ℕ} (hmk : m + k ≤ n)
    (hlt : |q| < (b : ℚ) ^ m) (hint : ∃ z : ℤ, q * (b : ℚ) ^ k = z) : roundSig b n q = q := by
  by_cases h0 : q = 0
  · rw [h0, roundSig_zero]
  have hb0 : (b : ℚ) ≠ 0 := by positivity
  have hpos : 0 < |q| := abs_pos.mpr h0
  have hlog : Int.log b |q| + 1 ≤ m := by
    have : Int.log b |q| < m := (Int.lt_zpow_iff_log_lt hb hpos).mp (by simpa using hlt)
    omega
  -- the exponent is at least `k`, so that the scaled number is an integer
  obtain ⟨j, hj⟩ : ∃ j : ℕ, (n : ℤ) - 1 - Int.log b |q| = (k : ℤ) + j :=
    ⟨((n : ℤ) - 1 - Int.log b |q| - k).toNat, by omega⟩
  obtain ⟨z, hz⟩ := hint
  have hscaled : q * (b : ℚ) ^ ((n : ℤ) - 1 - Int.log b |q|) = ((z * (b : ℤ) ^ j : ℤ) : ℚ) := by
    rw [hj, zpow_add₀ hb0, zpow_natCast, zpow_natCast, ← mul_assoc, hz]
    push_cast
    rfl
  unfold roundSig
  rw [if_neg h0, hscaled, roundHalfEven_intCast, ← hscaled]
  field_simp

theorem abs_roundHalfEven (q : ℚ) : |roundHalfEven q| = roundHalfEven |q| := by
  rcases le_total 0 q with h | h
  · rw [abs_of_nonneg h, abs_of_nonneg (roundHalfEven_nonneg h)]
  · have h' : 0 ≤ -q := by linarith
    rw [abs_of_nonpos h, roundHalfEven_neg, abs_of_nonpos]
    have := roundHalfEven_nonneg h'
    rw [roundHalfEven_neg] at this
    omega

theorem roundSig_nonneg {b n : ℕ} {q : ℚ} (h : 0 ≤ q) : 0 ≤ roundSig b n q := by
  unfold roundSig
  split_ifs
  · exact le_rfl
  · have hpow : (0 : ℚ) ≤ (b : ℚ) ^ ((n : ℤ) - 1 - Int.log b |q|) := zpow_nonneg (by positivity) _
    refine div_nonneg ?_ hpow
    exact_mod_cast roundHalfEven_nonneg (mul_nonneg h hpow)

theorem zpow_le_abs_roundSig {b n : ℕ} (hb : 1 < b) (hn : 0 < n) {q : ℚ} {m : ℤ}
    (h : (b : ℚ) ^ m ≤ |q|) : (b : ℚ) ^ m ≤ |roundSig b n q| := by
  have hbpos : (0 : ℚ) < b := by positivity
  have hpos : 0 < |q| := lt_of_lt_of_le (zpow_pos hbpos m) h
  have h0 : q ≠ 0 := abs_pos.mp hpos
  have hlog : m ≤ Int.log b |q| := (Int.zpow_le_iff_le_log hb hpos).mp h
  set e : ℤ := (n : ℤ) - 1 - Int.log b |q| with he
  have hepos : (0 : ℚ) < (b : ℚ) ^ e := zpow_pos hbpos e
  have habs : |roundSig b n q| = (roundHalfEven (|q| * (b : ℚ) ^ e) : ℚ) / (b : ℚ) ^ e := by
    unfold roundSig
    rw [if_neg h0, ← he, abs_div, abs_of_pos hepos, ← Int.cast_abs, abs_roundHalfEven, abs_mul,
      abs_of_pos hepos]
  rw [habs, le_div_iff₀ hepos]
  -- the scaled leading digit is an integer below the scaled number
  have hself : (b : ℚ) ^ (Int.log b |q|) ≤ |q| := Int.zpow_log_le_self hb hpos
  have hlead : (((b : ℤ) ^ (n - 1) : ℤ) : ℚ) ≤ |q| * (b : ℚ) ^ e := by
    have h1 : (b : ℚ) ^ (Int.log b |q|) * (b : ℚ) ^ e = (b : ℚ) ^ ((n : ℤ) - 1) := by
      rw [← zpow_add₀ hbpos.ne', he]; congr 1; ring
    have h2 : (b : ℚ) ^ ((n : ℤ) - 1) = (((b : ℤ) ^ (n - 1) : ℤ) : ℚ) := by
      rw [show ((n : ℤ) - 1) = ((n - 1 : ℕ) : ℤ) by omega, zpow_natCast]; push_cast; rfl
    rw [← h2, ← h1]
    exact mul_le_mul_of_nonneg_right hself hepos.le
  have hround : (((b : ℤ) ^ (n - 1) : ℤ) : ℚ) ≤ (roundHalfEven (|q| * (b : ℚ) ^ e) : ℚ) := by
    exact_mod_cast le_roundHalfEven hlead
  refine le_trans ?_ hround
  have h3 : (b : ℚ) ^ m * (b : ℚ) ^ e = (b : ℚ) ^ (m + e) := by rw [zpow_add₀ hbpos.ne']
  have h4 : (b : ℚ) ^ (m + e) ≤ (b : ℚ) ^ (((n - 1 : ℕ) : ℤ)) :=
    zpow_le_zpow_right₀ (by exact_mod_cast hb.le) (by omega)
  rw [h3]
  refine h4.trans ?_
  rw [zpow_natCast]; push_cast; exact le_rfl

theorem le_abs_roundSig {b n : ℕ} (hb : 1 < b) {q : ℚ} {m : ℕ} (hmn : m < n)
    (h : (b : ℚ) ^ m ≤ |q|) : (b : ℚ) ^ m ≤ |roundSig b n q| := by
  rw [← zpow_natCast] at h ⊢
  exact zpow_le_abs_roundSig hb (by omega) h

theorem roundSig_neg (b n : ℕ) (q : ℚ) : roundSig b n (-q) = -roundSig b n q := by
  unfold roundSig
  by_cases h0 : q = 0
  · simp [h0]
  · rw [if_neg (neg_ne_zero.mpr h0), if_neg h0, abs_neg, neg_mul, roundHalfEven_neg, Int.cast_neg,
      neg_div]

theorem roundSig_mono {b n : ℕ} (hb : 1 < b) (hn : 0 < n) {p q : ℚ} (hp : 0 ≤ p) (h : p ≤ q) :
    roundSig b n p ≤ roundSig b n q := by
  rcases eq_or_lt_of_le hp with rfl | hpos
  · rw [roundSig_zero]
    exact roundSig_nonneg h
  have hqpos : 0 < q := hpos.trans_le h
  have hbpos : (0 : ℚ) < b := by positivity
  rcases eq_or_lt_of_le (Int.log_mono_right (b := b) hpos h) with hlog | hlog
  · -- the same exponent: the scaled numbers are rounded in order
    unfold roundSig
    rw [if_neg hpos.ne', if_neg hqpos.ne', abs_of_pos hpos, abs_of_pos hqpos, hlog]
    have hscale : (0 : ℚ) < (b : ℚ) ^ ((n : ℤ) - 1 - Int.log b q) := zpow_pos hbpos _
    refine (div_le_div_iff_of_pos_right hscale).mpr ?_
    exact_mod_cast roundHalfEven_mono (mul_le_mul_of_nonneg_right h hscale.le)
  · -- a power of the base lies between the two
    have hsmall : roundSig b n p ≤ (b : ℚ) ^ (Int.log b p + 1) := by
      have hscale : (0 : ℚ) < (b : ℚ) ^ ((n : ℤ) - 1 - Int.log b p) := zpow_pos hbpos _
      have hlt : p < (b : ℚ) ^ (Int.log b p + 1) := Int.lt_zpow_succ_log_self hb p
      have hpow : (b : ℚ) ^ (Int.log b p + 1) * (b : ℚ) ^ ((n : ℤ) - 1 - Int.log b p) =
          ((b ^ n : ℤ) : ℚ) := by
        rw [← zpow_add₀ hbpos.ne']
        push_cast
        rw [← zpow_natCast]
        congr 1
        omega
      unfold roundSig
      rw [if_neg hpos.ne', abs_of_pos hpos, div_le_iff₀ hscale, hpow]
      have hround := roundHalfEven_mono (mul_le_mul_of_nonneg_right hlt.le hscale.le)
      rw [hpow, roundHalfEven_intCast] at hround
      exact_mod_cast hround
    have hlarge : (b : ℚ) ^ Int.log b q ≤ roundSig b n q := by
      have habs := zpow_le_abs_roundSig hb hn (q := q) (m := Int.log b q)
        (by rw [abs_of_pos hqpos]; exact Int.zpow_log_le_self hb hqpos)
      rwa [abs_of_nonneg (roundSig_nonneg hqpos.le)] at habs
    have hbetween : (b : ℚ) ^ (Int.log b p + 1) ≤ (b : ℚ) ^ Int.log b q :=
      zpow_le_zpow_right₀ (by exact_mod_cast hb.le) (by omega)
    exact hsmall.trans (hbetween.trans hlarge)

/-! ### Two roundings in a row -/

/-- The relative error of the significant digits is at most half a unit of the last one. -/
theorem abs_roundSig_sub_le {b n : ℕ} (hb : 1 < b) (q : ℚ) :
    2 * b ^ n * |roundSig b (n + 1) q - q| ≤ |q| := by
  by_cases h0 : q = 0
  · simp [h0, roundSig_zero]
  have hbpos : (0 : ℚ) < b := by positivity
  have hself : (b : ℚ) ^ Int.log b |q| ≤ |q| := Int.zpow_log_le_self hb (abs_pos.mpr h0)
  have he : ((n + 1 : ℕ) : ℤ) - 1 - Int.log b |q| = n - Int.log b |q| := by push_cast; ring
  unfold roundSig
  rw [if_neg h0, he]
  set e : ℤ := n - Int.log b |q| with hedef
  have hepos : (0 : ℚ) < (b : ℚ) ^ e := zpow_pos hbpos e
  have hsplit : (b : ℚ) ^ n = b ^ e * b ^ Int.log b |q| := by
    rw [← zpow_add₀ hbpos.ne', ← zpow_natCast]
    congr 1
    omega
  have herr : |(roundHalfEven (q * (b : ℚ) ^ e) : ℚ) / b ^ e - q| * b ^ e ≤ 1 / 2 := by
    rw [← abs_of_pos hepos, ← abs_mul, abs_of_pos hepos, sub_mul, div_mul_cancel₀ _ hepos.ne']
    exact abs_sub_roundHalfEven _
  calc 2 * (b : ℚ) ^ n * |(roundHalfEven (q * (b : ℚ) ^ e) : ℚ) / b ^ e - q|
      = 2 * b ^ Int.log b |q| * (|(roundHalfEven (q * (b : ℚ) ^ e) : ℚ) / b ^ e - q| * b ^ e) := by
        rw [hsplit]; ring
    _ ≤ 2 * b ^ Int.log b |q| * (1 / 2) :=
        mul_le_mul_of_nonneg_left herr (mul_nonneg zero_le_two (zpow_pos hbpos _).le)
    _ = b ^ Int.log b |q| := by ring
    _ ≤ |q| := hself

theorem roundSig_mul_pow {b : ℕ} (hb : 1 < b) (n k : ℕ) (q : ℚ) :
    roundSig b n (q * b ^ k) = roundSig b n q * b ^ k := by
  by_cases h0 : q = 0
  · simp [h0, roundSig_zero]
  have hbpos : (0 : ℚ) < b := by positivity
  have hpos : 0 < |q| := abs_pos.mpr h0
  have hbk : (0 : ℚ) < (b : ℚ) ^ k := pow_pos hbpos k
  have habs : |q * (b : ℚ) ^ k| = |q| * b ^ k := by rw [abs_mul, abs_of_pos hbk]
  have hlog : Int.log b |q * (b : ℚ) ^ k| = Int.log b |q| + k := by
    have hpos' : 0 < |q * (b : ℚ) ^ k| := by rw [habs]; exact mul_pos hpos hbk
    have h1 : Int.log b |q| + k ≤ Int.log b |q * (b : ℚ) ^ k| := by
      refine (Int.zpow_le_iff_le_log hb hpos').mp ?_
      rw [habs, zpow_add₀ hbpos.ne', zpow_natCast]
      gcongr
      exact Int.zpow_log_le_self hb hpos
    have h2 : Int.log b |q * (b : ℚ) ^ k| < Int.log b |q| + k + 1 := by
      refine (Int.lt_zpow_iff_log_lt hb hpos').mp ?_
      rw [habs, add_right_comm, zpow_add₀ hbpos.ne', zpow_natCast]
      gcongr
      exact Int.lt_zpow_succ_log_self hb _
    omega
  have hne : q * (b : ℚ) ^ k ≠ 0 := mul_ne_zero h0 hbk.ne'
  unfold roundSig
  rw [if_neg h0, if_neg hne, hlog]
  have hexp : (n : ℤ) - 1 - Int.log b |q| = (n : ℤ) - 1 - (Int.log b |q| + k) + k := by ring
  rw [hexp, zpow_add₀ hbpos.ne', zpow_natCast]
  have hz : (b : ℚ) ^ ((n : ℤ) - 1 - (Int.log b |q| + k)) ≠ 0 := (zpow_pos hbpos _).ne'
  rw [mul_right_comm q, mul_assoc q]
  field_simp

/-- **No double rounding.** A quotient of integers whose numerator has at most `n` digits in an even
base may be rounded to `n + 1` significant digits first: it is then either a tie kept as it is, or
farther from a tie than the digits can move it. -/
theorem roundHalfEven_roundSig_div {b n : ℕ} (hb : 1 < b) (heven : 2 ∣ b) {A B : ℤ} (hB : B ≠ 0)
    (hA : |A| < (b : ℤ) ^ n) :
    roundHalfEven (roundSig b (n + 1) ((A : ℚ) / B)) = roundHalfEven ((A : ℚ) / B) := by
  set x : ℚ := (A : ℚ) / B with hx
  have hBabs : (1 : ℚ) ≤ |(B : ℚ)| := by exact_mod_cast Int.one_le_abs hB
  have hxB : |x| * |(B : ℚ)| = |(A : ℚ)| := by
    rw [hx, abs_div, div_mul_cancel₀ _ (by linarith)]
  have hAq : |(A : ℚ)| < (b : ℚ) ^ n := by exact_mod_cast hA
  have hnear := abs_sub_roundHalfEven x
  by_cases htie : |(roundHalfEven x : ℚ) - x| = 1 / 2
  · -- a tie has one more digit in the base, which is even
    obtain ⟨c, rfl⟩ := heven
    have hlt : |x| < ((2 * c : ℕ) : ℚ) ^ n := by nlinarith [abs_nonneg x]
    obtain ⟨z, hz⟩ : ∃ z : ℤ, 2 * x = z := by
      rcases (abs_eq (by norm_num : (0 : ℚ) ≤ 1 / 2)).mp htie with h | h
      · exact ⟨2 * roundHalfEven x - 1, by push_cast; linarith⟩
      · exact ⟨2 * roundHalfEven x + 1, by push_cast; linarith⟩
    have hint : x * ((2 * c : ℕ) : ℚ) ^ 1 = ((z * c : ℤ) : ℚ) := by
      push_cast
      rw [← hz]
      ring
    rw [roundSig_eq_self hb (le_refl (n + 1)) hlt ⟨_, hint⟩]
  · have hstrict : |(roundHalfEven x : ℚ) - x| < 1 / 2 := lt_of_le_of_ne hnear htie
    -- twice the distance to the rounding is a multiple of `1 / |B|` and below one
    have hgap : 2 * (|(roundHalfEven x : ℚ) - x| * |(B : ℚ)|) + 1 ≤ |(B : ℚ)| := by
      have hdist : |(roundHalfEven x : ℚ) - x| * |(B : ℚ)| = ((|roundHalfEven x * B - A| : ℤ) : ℚ) := by
        rw [← abs_mul, sub_mul, hx, div_mul_cancel₀ _ (by exact_mod_cast hB)]
        push_cast
        rfl
      have hbelow : 2 * |roundHalfEven x * B - A| < |B| := by
        have : (2 : ℚ) * ((|roundHalfEven x * B - A| : ℤ) : ℚ) < |(B : ℚ)| := by
          rw [← hdist]; nlinarith
        exact_mod_cast this
      rw [hdist]
      exact_mod_cast hbelow
    have herr : |roundSig b (n + 1) x - x| * (2 * |(B : ℚ)|) < 1 := by
      have hrel := abs_roundSig_sub_le (n := n) hb x
      have hbn : (0 : ℚ) < (b : ℚ) ^ n := by positivity
      have hscaled : 2 * (b : ℚ) ^ n * |roundSig b (n + 1) x - x| * |(B : ℚ)| < (b : ℚ) ^ n :=
        calc 2 * (b : ℚ) ^ n * |roundSig b (n + 1) x - x| * |(B : ℚ)|
            ≤ |x| * |(B : ℚ)| := by gcongr
          _ < (b : ℚ) ^ n := by rw [hxB]; exact hAq
      nlinarith
    have hclose : |(roundHalfEven x : ℚ) - roundSig b (n + 1) x| < 1 / 2 := by
      have htri : |(roundHalfEven x : ℚ) - roundSig b (n + 1) x| ≤
          |(roundHalfEven x : ℚ) - x| + |roundSig b (n + 1) x - x| := by
        rw [abs_sub_comm (roundSig b (n + 1) x) x]
        exact abs_sub_le _ _ _
      nlinarith
    exact roundHalfEven_eq hclose.le fun h => absurd h hclose.ne

/-! ### The digits there are -/

theorem roundSig_intCast {b n : ℕ} (hb : 1 < b) {z : ℤ} (hz : |z| < (b : ℤ) ^ n) :
    roundSig b n (z : ℚ) = z := by
  refine roundSig_eq_self hb (m := n) (k := 0) le_rfl ?_ ⟨z, by simp⟩
  exact_mod_cast hz

/-- A whole number of at most `n` digits is kept at any place of the point. -/
theorem roundSig_of_digits {b n : ℕ} (hb : 1 < b) {z : ℤ} (hz : |z| < (b : ℤ) ^ n) (e : ℤ) :
    roundSig b n ((z : ℚ) / (b : ℚ) ^ e) = (z : ℚ) / (b : ℚ) ^ e := by
  have hbpos : (0 : ℚ) < b := by positivity
  have hkept := roundSig_intCast hb hz
  obtain ⟨k, rfl | rfl⟩ := e.eq_nat_or_neg
  · have hpow : (b : ℚ) ^ k ≠ 0 := (pow_pos hbpos k).ne'
    have hshift := roundSig_mul_pow hb n k ((z : ℚ) / (b : ℚ) ^ k)
    rw [div_mul_cancel₀ _ hpow, hkept] at hshift
    rw [zpow_natCast, eq_div_iff hpow]
    exact hshift.symm
  · rw [zpow_neg, div_inv_eq_mul, zpow_natCast, roundSig_mul_pow hb, hkept]

/-- What significant digits there are, as a whole number at some place of the point. -/
theorem exists_digits {b n : ℕ} (hb : 1 < b) (q : ℚ) : ∃ z : ℤ, |z| ≤ (b : ℤ) ^ n ∧
    roundSig b n q = (z : ℚ) / (b : ℚ) ^ ((n : ℤ) - 1 - Int.log b |q|) := by
  by_cases h0 : q = 0
  · exact ⟨0, by simp, by simp [h0, roundSig_zero]⟩
  have hbpos : (0 : ℚ) < b := by positivity
  refine ⟨roundHalfEven (q * (b : ℚ) ^ ((n : ℤ) - 1 - Int.log b |q|)), ?_, ?_⟩
  · have hlt : |q| < (b : ℚ) ^ (Int.log b |q| + 1) := Int.lt_zpow_succ_log_self hb _
    have hpow : (b : ℚ) ^ (Int.log b |q| + 1) * (b : ℚ) ^ ((n : ℤ) - 1 - Int.log b |q|) =
        ((b ^ n : ℤ) : ℚ) := by
      rw [← zpow_add₀ hbpos.ne']
      push_cast
      rw [← zpow_natCast]
      congr 1
      omega
    have hscale : (0 : ℚ) < (b : ℚ) ^ ((n : ℤ) - 1 - Int.log b |q|) := zpow_pos hbpos _
    rw [abs_roundHalfEven, abs_mul, abs_of_pos hscale]
    have hround := roundHalfEven_mono (mul_le_mul_of_nonneg_right hlt.le hscale.le)
    rwa [hpow, roundHalfEven_intCast] at hround
  · unfold roundSig
    rw [if_neg h0]

theorem roundSig_roundSig {b n : ℕ} (hb : 1 < b) (hn : 0 < n) (q : ℚ) :
    roundSig b n (roundSig b n q) = roundSig b n q := by
  have hbpos : (0 : ℚ) < b := by positivity
  obtain ⟨z, hz, hq⟩ := exists_digits (n := n) hb q
  rw [hq]
  rcases hz.lt_or_eq with hlt | heq
  · exact roundSig_of_digits hb hlt _
  · -- a power of the base, which has one digit
    obtain ⟨m, rfl⟩ : ∃ m, n = m + 1 := ⟨n - 1, by omega⟩
    have hb1 : (1 : ℤ) < b := by exact_mod_cast hb
    have hsign : ∃ y : ℤ, |y| < (b : ℤ) ^ (m + 1) ∧ z = y * b := by
      have hpos : (0 : ℤ) < (b : ℤ) ^ m := by positivity
      have hlt : (b : ℤ) ^ m < (b : ℤ) ^ (m + 1) := pow_lt_pow_right₀ hb1 (by omega)
      rcases abs_choice z with habs | habs
      · exact ⟨(b : ℤ) ^ m, by rwa [abs_of_pos hpos], by rw [← habs, heq, pow_succ]⟩
      · refine ⟨-(b : ℤ) ^ m, by rwa [abs_neg, abs_of_pos hpos], ?_⟩
        have : z = -(b : ℤ) ^ (m + 1) := by omega
        rw [this, pow_succ]
        ring
    obtain ⟨y, hy, rfl⟩ := hsign
    have hmove : (((y * b : ℤ) : ℚ)) / (b : ℚ) ^ (((m + 1 : ℕ) : ℤ) - 1 - Int.log b |q|) =
        (y : ℚ) / (b : ℚ) ^ (((m + 1 : ℕ) : ℤ) - 1 - Int.log b |q| - 1) := by
      rw [zpow_sub_one₀ hbpos.ne']
      push_cast
      field_simp
    rw [hmove]
    exact roundSig_of_digits hb hy _

/-- The part behind the point has no more digits than the number. -/
theorem roundSig_fract {b n : ℕ} (hb : 1 < b) (hn : 0 < n) {q : ℚ} (hq : 0 ≤ q) :
    roundSig b n (Int.fract (roundSig b n q)) = Int.fract (roundSig b n q) := by
  have hbpos : (0 : ℚ) < b := by positivity
  have hnonneg := roundSig_nonneg (b := b) (n := n) hq
  have htwice := roundSig_roundSig hb hn q
  obtain ⟨z, hz, hr⟩ := exists_digits (n := n) hb q
  obtain ⟨k, he | he⟩ := ((n : ℤ) - 1 - Int.log b |q|).eq_nat_or_neg
  · rw [he, zpow_natCast] at hr
    have hz0 : 0 ≤ z := by
      rw [hr, le_div_iff₀ (pow_pos hbpos k), zero_mul] at hnonneg
      exact_mod_cast hnonneg
    have hpow : (0 : ℤ) < (b : ℤ) ^ k := by positivity
    have hfract : Int.fract (roundSig b n q) = ((z % (b : ℤ) ^ k : ℤ) : ℚ) / (b : ℚ) ^ k := by
      have := Int.fract_div_intCast_eq_div_intCast_mod (k := ℚ) (m := z) (n := b ^ k)
      push_cast at this
      rw [hr, this]
    have hmod : z % (b : ℤ) ^ k ≤ z := by
      have hquot : 0 ≤ (b : ℤ) ^ k * (z / (b : ℤ) ^ k) :=
        mul_nonneg hpow.le (Int.ediv_nonneg hz0 hpow.le)
      linarith [Int.mul_ediv_add_emod z ((b : ℤ) ^ k)]
    have hmod0 : 0 ≤ z % (b : ℤ) ^ k := Int.emod_nonneg _ hpow.ne'
    rw [abs_of_nonneg hz0] at hz
    rcases (hmod.trans hz).lt_or_eq with hlt | heq
    · rw [hfract, ← zpow_natCast]
      exact roundSig_of_digits hb (by rwa [abs_of_nonneg hmod0]) _
    · have : z % (b : ℤ) ^ k = z := by omega
      rw [hfract, this, ← hr, htwice]
  · have hint : roundSig b n q = ((z * (b : ℤ) ^ k : ℤ) : ℚ) := by
      rw [hr, he, zpow_neg, div_inv_eq_mul, zpow_natCast]
      push_cast
      rfl
    rw [hint, Int.fract_intCast, roundSig_zero]

end Trueup.Lib.Rounding
