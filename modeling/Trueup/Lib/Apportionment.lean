import Mathlib.Algebra.BigOperators.Ring.Finset
import Mathlib.Algebra.Order.BigOperators.Group.Finset
import Mathlib.Algebra.Order.Floor.Ring
import Mathlib.Data.Rat.Floor
import Mathlib.Tactic.Linarith
import Mathlib.Tactic.Ring

/-! # Largest remainders

A whole number `total` is dealt out by shares that add up to it: everyone gets the whole part of his
share, and what is left over goes, one each, to those with the largest remainders. The shares are
known by approximations only, which may carry a share over whole numbers (`carry`).

* `sum_part_eq_iff`, `part_near_iff`: when the parts add up to the total, and when a part differs from
  the share by less than one.
* `Dealt.near`: it does as long as the errors, together and once more for everyone, stay below one
  (`Close`): then what is left over is not negative and no more than there are remainders.
* `Dealt.near_of_keeps`: it also does when no share is carried over, onto or off a whole number
  (`KeepsWholes`), however large the errors are. -/

namespace Trueup.Lib.Apportionment

open Finset

variable {ι : Type*} {s : Finset ι} {share approx error : ι → ℚ} {total : ℤ} {largest : ℚ}

/-- The approximations are good enough: with `largest` a bound of every error, all errors together
and `largest` once for everyone stay below one. -/
structure Close (s : Finset ι) (share approx error : ι → ℚ) (total : ℤ) (largest : ℚ) : Prop where
  sum_share : ∑ i ∈ s, share i = total
  near : ∀ i ∈ s, |approx i - share i| ≤ error i
  le_largest : ∀ i ∈ s, error i ≤ largest
  small : ∑ i ∈ s, error i + s.card * largest < 1

/-- What is left after everyone got the whole part. -/
def leftover (s : Finset ι) (approx : ι → ℚ) (total : ℤ) : ℤ := total - ∑ i ∈ s, ⌊approx i⌋

/-- Those whose approximate share is not whole. -/
def fractional (s : Finset ι) (approx : ι → ℚ) : Finset ι := s.filter fun i => 0 < Int.fract (approx i)

/-- The parts when the members of `chosen` get one more. -/
def part (approx : ι → ℚ) (chosen : Finset ι) [DecidableEq ι] (i : ι) : ℤ :=
  ⌊approx i⌋ + if i ∈ chosen then 1 else 0

/-- Over how many whole numbers the approximation carries a share; upwards when positive. -/
def carry (share approx : ι → ℚ) (i : ι) : ℤ := ⌊approx i⌋ - ⌊share i⌋

/-- The parts add up to the total exactly when as many get one more as are left over. -/
theorem sum_part_eq_iff [DecidableEq ι] {chosen : Finset ι} (hsub : chosen ⊆ s) :
    ∑ i ∈ s, part approx chosen i = total ↔ (chosen.card : ℤ) = leftover s approx total := by
  have hsum : ∑ i ∈ s, part approx chosen i = ∑ i ∈ s, ⌊approx i⌋ + chosen.card := by
    unfold part
    rw [sum_add_distrib, sum_ite_mem, inter_eq_right.mpr hsub, sum_const, nsmul_eq_mul, mul_one]
  rw [hsum, leftover]
  constructor <;> intro h <;> omega

/-- A whole number is nearer than one to a remainder exactly when it is nothing, or one and the
remainder is something. -/
theorem abs_sub_fract_lt_one_iff {k : ℤ} {x : ℚ} :
    |(k : ℚ) - Int.fract x| < 1 ↔ k = 0 ∨ k = 1 ∧ Int.fract x ≠ 0 := by
  have hnonneg := Int.fract_nonneg x
  have hlt := Int.fract_lt_one x
  rw [abs_lt]
  constructor
  · rintro ⟨hlo, hhi⟩
    have hk : -1 < k := by
      have : ((-1 : ℤ) : ℚ) < k := by push_cast; linarith
      exact_mod_cast this
    have hk' : k < 2 := by
      have : (k : ℚ) < ((2 : ℤ) : ℚ) := by push_cast; linarith
      exact_mod_cast this
    obtain rfl | rfl : k = 0 ∨ k = 1 := by omega
    · exact Or.inl rfl
    · refine Or.inr ⟨rfl, fun h0 => ?_⟩
      rw [h0, Int.cast_one, sub_zero] at hhi
      exact lt_irrefl _ hhi
  · rintro (rfl | ⟨rfl, h0⟩)
    · constructor <;> push_cast <;> linarith
    · have hpos : 0 < Int.fract x := lt_of_le_of_ne hnonneg (Ne.symm h0)
      constructor <;> push_cast <;> linarith

/-- **When a part is near its share**: with one more, the share is carried down by one, or not at all
and is not whole; without, it is not carried, or up by one and is not whole. -/
theorem part_near_iff [DecidableEq ι] {chosen : Finset ι} {i : ι} :
    |(part approx chosen i : ℚ) - share i| < 1 ↔
      (i ∈ chosen → carry share approx i = -1 ∨
        carry share approx i = 0 ∧ Int.fract (share i) ≠ 0) ∧
      (i ∉ chosen → carry share approx i = 0 ∨
        carry share approx i = 1 ∧ Int.fract (share i) ≠ 0) := by
  have hdist : (part approx chosen i : ℚ) - share i =
      ((carry share approx i + if i ∈ chosen then 1 else 0 : ℤ) : ℚ) - Int.fract (share i) := by
    rw [part, carry, ← Int.self_sub_floor]
    push_cast
    ring
  rw [hdist, abs_sub_fract_lt_one_iff]
  by_cases hi : i ∈ chosen
  · simp only [hi, if_true, true_implies, not_true_eq_false, false_implies, and_true]
    rw [show carry share approx i + 1 = 0 ↔ carry share approx i = -1 by omega,
      show carry share approx i + 1 = 1 ↔ carry share approx i = 0 by omega]
  · simp only [hi, if_false, add_zero, false_implies, not_false_eq_true, true_implies, true_and]

namespace Close

theorem exact (hsum : ∑ i ∈ s, share i = total) : Close s share share (fun _ => 0) total 0 :=
  ⟨hsum, fun i _ => by rw [sub_self, abs_zero], fun _ _ => le_rfl, by simp⟩

theorem error_nonneg (h : Close s share approx error total largest) {i : ι} (hi : i ∈ s) :
    0 ≤ error i := (abs_nonneg _).trans (h.near i hi)

/-- What the whole part of an approximate share misses. -/
theorem missing (h : Close s share approx error total largest) {i : ι} (hi : i ∈ s) :
    |share i - ⌊approx i⌋ - Int.fract (approx i)| ≤ error i := by
  have hnear := h.near i hi
  rw [abs_sub_comm] at hnear
  have : share i - ⌊approx i⌋ - Int.fract (approx i) = share i - approx i := by
    rw [← Int.self_sub_floor]
    ring
  rwa [this]

/-- What is left over is what the whole parts miss together. -/
theorem leftover_eq (h : Close s share approx error total largest) :
    (leftover s approx total : ℚ) = ∑ i ∈ s, (share i - ⌊approx i⌋) := by
  rw [leftover, sum_sub_distrib, h.sum_share]
  push_cast
  rfl

theorem sum_error_lt (h : Close s share approx error total largest) : ∑ i ∈ s, error i < 1 := by
  rcases s.eq_empty_or_nonempty with rfl | ⟨i, hi⟩
  · simp
  · have hlargest : 0 ≤ largest := (h.error_nonneg hi).trans (h.le_largest i hi)
    have : 0 ≤ (s.card : ℚ) * largest := mul_nonneg (Nat.cast_nonneg _) hlargest
    linarith [h.small]

theorem leftover_nonneg (h : Close s share approx error total largest) :
    0 ≤ leftover s approx total := by
  have hle : ∑ i ∈ s, -error i ≤ ∑ i ∈ s, (share i - ⌊approx i⌋) := by
    refine sum_le_sum fun i hi => ?_
    have := (abs_le.mp (h.missing hi)).1
    have := Int.fract_nonneg (approx i)
    linarith
  rw [← h.leftover_eq, sum_neg_distrib] at hle
  have : (-1 : ℚ) < leftover s approx total := by linarith [h.sum_error_lt]
  have : -1 < leftover s approx total := by exact_mod_cast this
  omega

theorem leftover_le (h : Close s share approx error total largest) :
    leftover s approx total ≤ (fractional s approx).card := by
  have hle : ∑ i ∈ s, (share i - ⌊approx i⌋) ≤
      ∑ i ∈ s, ((if 0 < Int.fract (approx i) then 1 else 0) + error i) := by
    refine sum_le_sum fun i hi => ?_
    have hmiss := (abs_le.mp (h.missing hi)).2
    have hlt := Int.fract_lt_one (approx i)
    split_ifs with hpos
    · linarith
    · linarith
  rw [← h.leftover_eq, sum_add_distrib, ← sum_filter, sum_const, nsmul_eq_mul, mul_one] at hle
  have : (leftover s approx total : ℚ) < (fractional s approx).card + 1 := by
    unfold fractional
    linarith [h.sum_error_lt]
  have : leftover s approx total < (fractional s approx).card + 1 := by exact_mod_cast this
  omega

end Close

/-- What is left over is dealt to members of `s`, one each, and nobody who gets nothing has a larger
remainder than somebody who does. -/
structure Dealt (s : Finset ι) (approx : ι → ℚ) (total : ℤ) (chosen : Finset ι) : Prop where
  subset : chosen ⊆ s
  card : (chosen.card : ℤ) = leftover s approx total
  ordered : ∀ i ∈ chosen, ∀ j ∈ s, j ∉ chosen → Int.fract (approx j) ≤ Int.fract (approx i)

namespace Dealt
variable [DecidableEq ι] {chosen : Finset ι}

/-- Nobody with a whole approximate share gets more, when there are enough remainders. -/
theorem whole (h : Dealt s approx total chosen)
    (hle : leftover s approx total ≤ (fractional s approx).card) {i : ι}
    (hwhole : Int.fract (approx i) = 0) : i ∉ chosen := by
  intro hchosen
  -- everyone with a remainder is chosen, and `i` besides
  have hsub : fractional s approx ⊆ chosen.erase i := by
    intro j hj
    obtain ⟨hjs, hpos⟩ := mem_filter.mp hj
    refine mem_erase.mpr ⟨?_, ?_⟩
    · rintro rfl
      exact hpos.ne' hwhole
    · by_contra hnot
      have := h.ordered i hchosen j hjs hnot
      linarith
  have hcard := card_le_card hsub
  rw [card_erase_of_mem hchosen] at hcard
  have hpos := card_pos.mpr ⟨i, hchosen⟩
  rw [← h.card] at hle
  omega

theorem lt_share (h : Dealt s approx total chosen) (hclose : Close s share approx error total largest)
    {i : ι} (hi : i ∈ chosen) : ⌊approx i⌋ < share i := by
  by_contra hnot
  have hnone : share i - ⌊approx i⌋ ≤ 0 := sub_nonpos.mpr (not_lt.mp hnot)
  have his := h.subset hi
  have hlargest : error i ≤ largest := hclose.le_largest i his
  have herror := hclose.error_nonneg his
  -- the others who get nothing have remainders no larger than the error of `i`
  have hbound : ∑ j ∈ s, (share j - ⌊approx j⌋ + if j = i then 1 else 0) ≤
      ∑ j ∈ s, ((if j ∈ chosen then 1 else 0) + (error j + largest)) := by
    refine sum_le_sum fun j hj => ?_
    have hmiss := (abs_le.mp (hclose.missing hj)).2
    have hmissi := (abs_le.mp (hclose.missing his)).1
    have hfract := Int.fract_lt_one (approx j)
    have herrorj := hclose.error_nonneg hj
    by_cases hji : j = i
    · subst hji
      rw [if_pos rfl, if_pos hi]
      linarith
    · rw [if_neg hji]
      split_ifs with hchosen
      · linarith
      · have := h.ordered i hi j hj hchosen
        linarith
  rw [sum_add_distrib, ← hclose.leftover_eq, sum_ite_eq' s i, if_pos his, sum_add_distrib,
    sum_ite_mem, inter_eq_right.mpr h.subset, sum_const, nsmul_eq_mul, mul_one, sum_add_distrib,
    sum_const, nsmul_eq_mul] at hbound
  have hcard : ((chosen.card : ℤ) : ℚ) = leftover s approx total := by rw [h.card]
  push_cast at hcard
  linarith [hclose.small]

theorem share_lt (h : Dealt s approx total chosen) (hclose : Close s share approx error total largest)
    {i : ι} (hi : i ∈ s) (hnot : i ∉ chosen) : share i < ⌊approx i⌋ + 1 := by
  by_contra hge
  have hone : 1 ≤ share i - ⌊approx i⌋ := by linarith [not_lt.mp hge]
  have hlargest : error i ≤ largest := hclose.le_largest i hi
  have herror := hclose.error_nonneg hi
  -- those who get one more have remainders at least as large
  have hbound : ∑ j ∈ s, ((if j ∈ chosen then 1 else 0) + ((if j = i then 1 else 0) -
      (error j + largest))) ≤ ∑ j ∈ s, (share j - ⌊approx j⌋) := by
    refine sum_le_sum fun j hj => ?_
    have hmiss := (abs_le.mp (hclose.missing hj)).1
    have hmissi := (abs_le.mp (hclose.missing hi)).2
    have hfract := Int.fract_nonneg (approx j)
    have herrorj := hclose.error_nonneg hj
    by_cases hji : j = i
    · subst hji
      rw [if_neg hnot, if_pos rfl]
      linarith
    · rw [if_neg hji]
      split_ifs with hchosen
      · have := h.ordered j hchosen i hi hnot
        linarith
      · linarith
  rw [← hclose.leftover_eq, sum_add_distrib, sum_ite_mem, inter_eq_right.mpr h.subset, sum_const,
    nsmul_eq_mul, mul_one, sum_sub_distrib, sum_ite_eq' s i, if_pos hi, sum_add_distrib, sum_const,
    nsmul_eq_mul] at hbound
  have hcard : ((chosen.card : ℤ) : ℚ) = leftover s approx total := by rw [h.card]
  push_cast at hcard
  linarith [hclose.small]

/-- **Everyone's part differs from his share by less than one** when the errors are small. -/
theorem near (h : Dealt s approx total chosen) (hclose : Close s share approx error total largest)
    {i : ι} (hi : i ∈ s) : |(part approx chosen i : ℚ) - share i| < 1 := by
  have hmiss := abs_le.mp (hclose.missing hi)
  have hfract := Int.fract_lt_one (approx i)
  have hnonneg := Int.fract_nonneg (approx i)
  have herror : error i < 1 :=
    (single_le_sum (fun j hj => hclose.error_nonneg hj) hi).trans_lt hclose.sum_error_lt
  unfold part
  rw [abs_lt]
  split_ifs with hchosen
  · have := h.lt_share hclose hchosen
    push_cast
    constructor
    · linarith [hmiss.2]
    · linarith
  · have := h.share_lt hclose hi hchosen
    push_cast
    constructor
    · linarith
    · linarith [hmiss.1]

end Dealt

/-- The approximations carry no share over a whole number, and none onto or off one. -/
def KeepsWholes (s : Finset ι) (share approx : ι → ℚ) : Prop :=
  ∀ i ∈ s, ⌊approx i⌋ = ⌊share i⌋ ∧ (Int.fract (approx i) = 0 ↔ Int.fract (share i) = 0)

namespace KeepsWholes

theorem leftover_eq (h : KeepsWholes s share approx) :
    leftover s approx total = leftover s share total := by
  rw [leftover, leftover, sum_congr rfl fun i hi => (h i hi).1]

theorem fractional_eq (h : KeepsWholes s share approx) : fractional s approx = fractional s share := by
  refine filter_congr fun i hi => ?_
  rw [(Int.fract_nonneg _).lt_iff_ne', (Int.fract_nonneg _).lt_iff_ne', Ne, Ne, (h i hi).2]

/-- What is left over is not negative, and there are enough remainders for it. -/
theorem leftover_mem (h : KeepsWholes s share approx) (hsum : ∑ i ∈ s, share i = total) :
    0 ≤ leftover s approx total ∧ leftover s approx total ≤ (fractional s approx).card := by
  rw [h.leftover_eq, h.fractional_eq]
  exact ⟨(Close.exact hsum).leftover_nonneg, (Close.exact hsum).leftover_le⟩

end KeepsWholes

/-- **Everyone's part differs from his share by less than one** when no share is carried over, onto
or off a whole number. -/
theorem Dealt.near_of_keeps [DecidableEq ι] {chosen : Finset ι} (h : Dealt s approx total chosen)
    (hkeeps : KeepsWholes s share approx) (hsum : ∑ i ∈ s, share i = total) {i : ι} (hi : i ∈ s) :
    |(part approx chosen i : ℚ) - share i| < 1 := by
  obtain ⟨hfloor, hwhole⟩ := hkeeps i hi
  have hcarry : carry share approx i = 0 := by rw [carry, hfloor, sub_self]
  refine part_near_iff.mpr ⟨fun hchosen => Or.inr ⟨hcarry, fun h0 => ?_⟩, fun _ => Or.inl hcarry⟩
  exact h.whole (hkeeps.leftover_mem hsum).2 (hwhole.mpr h0) hchosen

end Trueup.Lib.Apportionment
