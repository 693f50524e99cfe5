import Mathlib.Algebra.BigOperators.Field
import Mathlib.Data.List.GetD
import Mathlib.Data.List.Sort
import Trueup.Core.Money
import Trueup.Lib.Apportionment

/-! # Allocation by weights

`allocate` of `core/money.py`: a value is split into parts proportional to whole weights, the whole
quanta of each share first and what is left over to the largest remainders, the earlier weight
first.

The shares are computed in the decimal context, whose 28 digits may be too few: the whole quanta of
the rounded shares may then exceed the value, and `order[:leftover]` with a negative `leftover` is
not empty; or they carry a share over whole numbers. `DealsRight` says what they may do.

* `finalUnits_eq`, `allocate_ok_iff`: what `allocate` returns, by the rounded shares.
* `dealsRight_of_keeps`, `dealsRight_of_small`, `dealsRight_of_length`: values and weights whose
  roundings leave the dealing right.
* `allocate_exact_iff`: no quantum is lost exactly when they do. -/

namespace Trueup.Core

open Trueup.Lib Trueup.Lib.Rounding Trueup.Lib.Transaction Trueup.Lib.Apportionment

/-- `to_integral_value(rounding=ROUND_DOWN)`. -/
def roundDown (v : ℚ) : ℤ := if 0 ≤ v then ⌊v⌋ else ⌈v⌉

/-- `l[:k]`: a negative `k` counts from the end. -/
def sliceTo {α : Type} (l : List α) (k : ℤ) : List α :=
  if 0 ≤ k then l.take k.toNat else l.take (l.length - (-k).toNat)

namespace QuantizedDecimal

variable {s p : ℕ}

/-- `total_smallest_units`. -/
def totalSmallestUnits (a : QuantizedDecimal s p) : ℤ :=
  roundDown (context (context |a.value| / (1 / 10 ^ s)))

/-- One of the `raw_shares`. -/
def rawShare (totalSmallestUnits totalWeight weight : ℤ) : ℚ :=
  context (context ((totalSmallestUnits : ℚ) * weight) / totalWeight)

/-- `key=lambda i: (-remainders[i], i)`. -/
def comesBefore (remainders : List ℚ) (i j : ℕ) : Prop :=
  remainders.getD j 0 < remainders.getD i 0 ∨
    remainders.getD i 0 = remainders.getD j 0 ∧ i ≤ j

instance (remainders : List ℚ) : DecidableRel (comesBefore remainders) := fun _ _ =>
  inferInstanceAs (Decidable (_ ∨ _))

/-- `final_units`. -/
def finalUnits (totalSmallestUnits : ℤ) (rawShares : List ℚ) : List ℤ :=
  let baseUnits := rawShares.map roundDown
  let remainders := List.zipWith (fun raw base => context (raw - base)) rawShares
    (baseUnits.map ((↑) : ℤ → ℚ))
  let leftover := totalSmallestUnits - baseUnits.sum
  let order := (List.range rawShares.length).insertionSort (comesBefore remainders)
  (sliceTo order leftover).foldl (fun units i => units.modify i (· + 1)) baseUnits

/-- `allocate`. -/
def allocate (a : QuantizedDecimal s p) (weights : List ℤ) :
    Except Error (List (QuantizedDecimal s p)) := do
  check (weights ≠ []) .valueError
  check (∀ w ∈ weights, 0 ≤ w) .valueError
  let totalWeight := weights.sum
  check (0 < totalWeight) .valueError
  let sign : ℚ := if a.value < 0 then -1 else 1
  let rawShares := weights.map (rawShare a.totalSmallestUnits totalWeight)
  (finalUnits a.totalSmallestUnits rawShares).mapM fun units : ℤ =>
    ofDecimal (context (context ((units : ℚ) * (1 / 10 ^ s)) * sign))

/-! ### The dealing of what is left over -/

/-- What is left over after the whole parts of the rounded shares. -/
def leftoverOf (totalSmallestUnits : ℤ) (rawShares : List ℚ) : ℤ :=
  totalSmallestUnits - (rawShares.map Int.floor).sum

/-- The weights that get one more: the largest remainders first, the earlier weight first. -/
def dealtTo (totalSmallestUnits : ℤ) (rawShares : List ℚ) : List ℕ :=
  sliceTo ((List.range rawShares.length).insertionSort (comesBefore (rawShares.map Int.fract)))
    (leftoverOf totalSmallestUnits rawShares)

theorem roundDown_of_nonneg {v : ℚ} (h : 0 ≤ v) : roundDown v = ⌊v⌋ := if_pos h

theorem getElem?_addOne : ∀ {chosen : List ℕ} (units : List ℤ), chosen.Nodup → ∀ j,
    (chosen.foldl (fun units i => units.modify i (· + 1)) units)[j]? =
      units[j]?.map (· + if j ∈ chosen then 1 else 0)
  | [], units, _, j => by simp
  | i :: chosen, units, hnodup, j => by
    obtain ⟨hi, hnodup'⟩ := List.nodup_cons.mp hnodup
    rw [List.foldl_cons, getElem?_addOne _ hnodup', List.getElem?_modify]
    by_cases hij : i = j
    · subst hij
      cases units[i]? with
      | none => rfl
      | some u => simp [hi]
    · cases units[j]? with
      | none => rfl
      | some u => simp [hij, Ne.symm hij]

theorem sliceTo_sublist {α : Type} (l : List α) (k : ℤ) : (sliceTo l k).Sublist l := by
  unfold sliceTo
  split_ifs <;> exact List.take_sublist _ _

theorem length_sliceTo_eq_iff {α : Type} (l : List α) (k : ℤ) :
    ((sliceTo l k).length : ℤ) = k ↔ 0 ≤ k ∧ k ≤ l.length := by
  unfold sliceTo
  split_ifs with h
  · rw [List.length_take]
    omega
  · rw [List.length_take]
    omega

theorem nodup_dealtTo (total : ℤ) (rawShares : List ℚ) : (dealtTo total rawShares).Nodup :=
  ((List.perm_insertionSort _ _).nodup_iff.mpr List.nodup_range).sublist (sliceTo_sublist _ _)

theorem lt_of_mem_dealtTo {total : ℤ} {rawShares : List ℚ} {i : ℕ}
    (h : i ∈ dealtTo total rawShares) : i < rawShares.length :=
  List.mem_range.mp ((List.perm_insertionSort _ _).mem_iff.mp ((sliceTo_sublist _ _).subset h))

theorem card_dealtTo_eq_iff (total : ℤ) (rawShares : List ℚ) :
    ((dealtTo total rawShares).toFinset.card : ℤ) = leftoverOf total rawShares ↔
      0 ≤ leftoverOf total rawShares ∧ leftoverOf total rawShares ≤ rawShares.length := by
  rw [List.toFinset_card_of_nodup (nodup_dealtTo _ _), dealtTo, length_sliceTo_eq_iff,
    List.length_insertionSort, List.length_range]

instance (remainders : List ℚ) : Std.Total (comesBefore remainders) where
  total i j := by
    unfold comesBefore
    rcases lt_trichotomy (remainders.getD i 0) (remainders.getD j 0) with h | h | h
    · exact Or.inr (Or.inl h)
    · rcases Nat.le_total i j with hle | hle
      · exact Or.inl (Or.inr ⟨h, hle⟩)
      · exact Or.inr (Or.inr ⟨h.symm, hle⟩)
    · exact Or.inl (Or.inl h)

instance (remainders : List ℚ) : IsTrans ℕ (comesBefore remainders) where
  trans i j k := by
    rintro (h | ⟨h, hle⟩) (h' | ⟨h', hle'⟩)
    · exact Or.inl (h'.trans h)
    · exact Or.inl (h' ▸ h)
    · exact Or.inl (h ▸ h')
    · exact Or.inr ⟨h.trans h', hle.trans hle'⟩

theorem sum_eq_sum_range {α : Type*} [AddCommMonoid α] (l : List α) :
    l.sum = ∑ i ∈ Finset.range l.length, l.getD i 0 := by
  induction l with
  | nil => rfl
  | cons a l ih =>
    rw [List.sum_cons, List.length_cons, Finset.sum_range_succ', ih, add_comm]
    rfl

theorem getD_map_floor (rawShares : List ℚ) (i : ℕ) :
    (rawShares.map Int.floor).getD i 0 = ⌊rawShares.getD i 0⌋ := by
  have h := List.getD_map rawShares (0 : ℚ) Int.floor (n := i)
  rwa [Int.floor_zero] at h

theorem getD_map_fract (rawShares : List ℚ) (i : ℕ) :
    (rawShares.map Int.fract).getD i 0 = Int.fract (rawShares.getD i 0) := by
  have h := List.getD_map rawShares (0 : ℚ) Int.fract (n := i)
  rwa [Int.fract_zero] at h

theorem leftover_eq_leftoverOf (total : ℤ) (rawShares : List ℚ) :
    leftover (Finset.range rawShares.length) (rawShares.getD · 0) total =
      leftoverOf total rawShares := by
  rw [leftover, leftoverOf, sum_eq_sum_range (rawShares.map Int.floor), List.length_map]
  congr 1
  exact Finset.sum_congr rfl fun i _ => (getD_map_floor rawShares i).symm

/-- The largest remainders are dealt to, when there are enough of them. -/
theorem dealt_dealtTo {total : ℤ} {rawShares : List ℚ}
    (hnonneg : 0 ≤ leftover (Finset.range rawShares.length) (rawShares.getD · 0) total)
    (hle : leftover (Finset.range rawShares.length) (rawShares.getD · 0) total ≤
      (fractional (Finset.range rawShares.length) (rawShares.getD · 0)).card) :
    Dealt (Finset.range rawShares.length) (rawShares.getD · 0) total
      (dealtTo total rawShares).toFinset := by
  have hcard : (fractional (Finset.range rawShares.length) (rawShares.getD · 0)).card ≤
      rawShares.length :=
    (Finset.card_filter_le _ _).trans (Finset.card_range _).le
  rw [leftover_eq_leftoverOf] at hnonneg hle
  set order := (List.range rawShares.length).insertionSort
    (comesBefore (rawShares.map Int.fract)) with horder
  have hmem : ∀ {i}, i ∈ order ↔ i < rawShares.length := by
    intro i
    rw [(List.perm_insertionSort _ _).mem_iff, List.mem_range]
  constructor
  · intro i hi
    exact Finset.mem_range.mpr (lt_of_mem_dealtTo (List.mem_toFinset.mp hi))
  · rw [leftover_eq_leftoverOf, card_dealtTo_eq_iff]
    omega
  · intro i hi j hj hnot
    have htake : dealtTo total rawShares = order.take (leftoverOf total rawShares).toNat := by
      rw [dealtTo, sliceTo, if_pos hnonneg]
    have hj' : j ∈ dealtTo total rawShares ++ order.drop (leftoverOf total rawShares).toNat := by
      rw [htake, List.take_append_drop]
      exact hmem.mpr (Finset.mem_range.mp hj)
    have hdrop : j ∈ order.drop (leftoverOf total rawShares).toNat :=
      (List.mem_append.mp hj').resolve_left fun h => hnot (List.mem_toFinset.mpr h)
    have hsorted : (dealtTo total rawShares ++
        order.drop (leftoverOf total rawShares).toNat).Pairwise
          (comesBefore (rawShares.map Int.fract)) := by
      rw [htake, List.take_append_drop]
      exact List.pairwise_insertionSort _ _
    have hbefore := (List.pairwise_append.mp hsorted).2.2 i (List.mem_toFinset.mp hi) j hdrop
    unfold comesBefore at hbefore
    rw [getD_map_fract, getD_map_fract] at hbefore
    rcases hbefore with h | ⟨h, -⟩
    · exact h.le
    · exact h.ge

/-- What `final_units` is when the context keeps the remainders. -/
theorem finalUnits_eq {total : ℤ} {rawShares : List ℚ} (hnonneg : ∀ r ∈ rawShares, 0 ≤ r)
    (hfract : ∀ r ∈ rawShares, context (Int.fract r) = Int.fract r) :
    finalUnits total rawShares = (List.range rawShares.length).map
      (part (rawShares.getD · 0) (dealtTo total rawShares).toFinset) := by
  have hbase : rawShares.map roundDown = rawShares.map Int.floor :=
    List.map_congr_left fun r hr => roundDown_of_nonneg (hnonneg r hr)
  have hremainders : List.zipWith (fun raw base => context (raw - base)) rawShares
      ((rawShares.map Int.floor).map ((↑) : ℤ → ℚ)) = rawShares.map Int.fract := by
    rw [List.map_map, List.zipWith_map_right, List.zipWith_self]
    refine List.map_congr_left fun r hr => ?_
    rw [Function.comp_apply, Int.self_sub_floor, hfract r hr]
  have hunits : finalUnits total rawShares = (dealtTo total rawShares).foldl
      (fun units i => units.modify i (· + 1)) (rawShares.map Int.floor) := by
    unfold finalUnits dealtTo leftoverOf
    dsimp only
    rw [hbase, hremainders]
  rw [hunits]
  refine List.ext_getElem? fun j => ?_
  rw [getElem?_addOne _ (nodup_dealtTo _ _), List.getElem?_map, List.getElem?_map]
  by_cases hj : j < rawShares.length
  · rw [List.getElem?_eq_getElem hj, List.getElem?_range hj]
    simp [part, List.getElem?_eq_getElem hj]
  · rw [List.getElem?_eq_none (not_lt.mp hj), List.getElem?_eq_none (by simpa using hj)]
    rfl

/-! ### The digits of the context -/

theorem context_intCast {z : ℤ} (hz : |z| < 10 ^ 28) : context (z : ℚ) = z :=
  roundSig_intCast (by norm_num) hz

theorem context_nonneg {v : ℚ} (h : 0 ≤ v) : 0 ≤ context v := roundSig_nonneg h

/-- The largest relative error of the context. -/
theorem abs_context_sub_le (v : ℚ) : |context v - v| ≤ |v| / (2 * 10 ^ 27) := by
  have h := abs_roundSig_sub_le (b := 10) (n := 27) (by norm_num) v
  rw [le_div_iff₀ (by norm_num), mul_comm]
  exact_mod_cast h

/-- A value's quanta have few enough digits for the context. -/
theorem totalSmallestUnits_eq (hp : p ≤ 28) (a : QuantizedDecimal s p) :
    a.totalSmallestUnits = |a.quanta| := by
  have hpow : (10 : ℤ) ^ p ≤ 10 ^ 28 := pow_le_pow_right₀ (by norm_num) hp
  have hfit : |a.quanta| < 10 ^ 28 := a.fits.trans_le hpow
  have hmagnitude : |a.value| = ((|a.quanta| : ℤ) : ℚ) / ((10 : ℕ) : ℚ) ^ (s : ℤ) := by
    rw [value, abs_div, abs_of_pos (by positivity : (0 : ℚ) < 10 ^ s)]
    rw [zpow_natCast]
    push_cast
    rfl
  have hkept : context |a.value| = |a.value| := by
    rw [hmagnitude]
    exact roundSig_of_digits (by norm_num) (by rw [abs_abs]; exact_mod_cast hfit) _
  have hquanta : |a.value| / (1 / 10 ^ s) = ((|a.quanta| : ℤ) : ℚ) := by
    rw [hmagnitude, zpow_natCast]
    push_cast
    field_simp
  rw [totalSmallestUnits, hkept, hquanta, context_intCast (by rw [abs_abs]; omega),
    roundDown_of_nonneg (by exact_mod_cast abs_nonneg a.quanta), Int.floor_intCast]

theorem abs_rawShare_sub_le {total totalWeight weight : ℤ} (htotal : 0 ≤ total)
    (hweight : 0 ≤ weight) (hpos : 0 < totalWeight) :
    |rawShare total totalWeight weight - total * weight / totalWeight| ≤
      total * weight / totalWeight * (1 / 10 ^ 27 + 1 / (4 * 10 ^ 54)) := by
  have hW : (0 : ℚ) < totalWeight := by exact_mod_cast hpos
  have hprod : (0 : ℚ) ≤ (total : ℚ) * weight := by exact_mod_cast mul_nonneg htotal hweight
  set product := context ((total : ℚ) * weight) with hproduct
  have hfirst := abs_context_sub_le ((total : ℚ) * weight)
  have hsecond := abs_context_sub_le (product / totalWeight)
  rw [abs_of_nonneg hprod] at hfirst
  rw [abs_of_nonneg (div_nonneg (context_nonneg hprod) hW.le)] at hsecond
  -- the error of the product, divided
  have hdivided : |product / totalWeight - total * weight / totalWeight| ≤
      total * weight / totalWeight / (2 * 10 ^ 27) := by
    rw [← sub_div, abs_div, abs_of_pos hW, div_right_comm]
    gcongr
  have hproduct_le : product / totalWeight ≤
      total * weight / totalWeight * (1 + 1 / (2 * 10 ^ 27)) := by
    have := (abs_le.mp hdivided).2
    linarith
  calc |rawShare total totalWeight weight - total * weight / totalWeight|
      ≤ |rawShare total totalWeight weight - product / totalWeight| +
          |product / totalWeight - total * weight / totalWeight| := abs_sub_le _ _ _
    _ ≤ product / totalWeight / (2 * 10 ^ 27) +
          total * weight / totalWeight / (2 * 10 ^ 27) := add_le_add hsecond hdivided
    _ ≤ total * weight / totalWeight * (1 + 1 / (2 * 10 ^ 27)) / (2 * 10 ^ 27) +
          total * weight / totalWeight / (2 * 10 ^ 27) := by gcongr
    _ = total * weight / totalWeight * (1 / 10 ^ 27 + 1 / (4 * 10 ^ 54)) := by ring

/-! ### The condition -/

/-- The exact share of a weight, in quanta. -/
def exactShare (totalSmallestUnits totalWeight weight : ℤ) : ℚ :=
  totalSmallestUnits * weight / totalWeight

/-- The shares as the context rounds them. -/
def rawShares (totalSmallestUnits : ℤ) (weights : List ℤ) : List ℚ :=
  weights.map (rawShare totalSmallestUnits weights.sum)

/-- Over how many whole numbers the context carries the share of a weight; upwards when positive. -/
def carried (totalSmallestUnits totalWeight weight : ℤ) : ℤ :=
  ⌊rawShare totalSmallestUnits totalWeight weight⌋ -
    ⌊exactShare totalSmallestUnits totalWeight weight⌋

/-- **The roundings of the context leave the dealing right**: the whole parts of the rounded shares
come to no more than the total and leave at most one quantum for each weight; a share that gets one
of these is carried down over one whole number, or over none and is not whole; a share that gets none
is carried over no whole number, or up over one and is not whole. -/
structure DealsRight (totalSmallestUnits : ℤ) (weights : List ℤ) : Prop where
  leftover_nonneg : 0 ≤ leftoverOf totalSmallestUnits (rawShares totalSmallestUnits weights)
  leftover_le :
    leftoverOf totalSmallestUnits (rawShares totalSmallestUnits weights) ≤ weights.length
  dealt : ∀ i ∈ dealtTo totalSmallestUnits (rawShares totalSmallestUnits weights),
    carried totalSmallestUnits weights.sum (weights.getD i 0) = -1 ∨
      carried totalSmallestUnits weights.sum (weights.getD i 0) = 0 ∧
        Int.fract (exactShare totalSmallestUnits weights.sum (weights.getD i 0)) ≠ 0
  rest : ∀ i < weights.length,
    i ∉ dealtTo totalSmallestUnits (rawShares totalSmallestUnits weights) →
    carried totalSmallestUnits weights.sum (weights.getD i 0) = 0 ∨
      carried totalSmallestUnits weights.sum (weights.getD i 0) = 1 ∧
        Int.fract (exactShare totalSmallestUnits weights.sum (weights.getD i 0)) ≠ 0

theorem length_rawShares (total : ℤ) (weights : List ℤ) :
    (rawShares total weights).length = weights.length := List.length_map _

theorem getD_rawShares (total : ℤ) (weights : List ℤ) (i : ℕ) :
    (rawShares total weights).getD i 0 = rawShare total weights.sum (weights.getD i 0) := by
  have hzero : rawShare total weights.sum 0 = 0 := by simp [rawShare, context, roundSig_zero]
  have hget := List.getD_map weights (0 : ℤ) (rawShare total weights.sum) (n := i)
  rwa [hzero] at hget

theorem carry_eq_carried (total : ℤ) (weights : List ℤ) (i : ℕ) :
    carry (fun i => exactShare total weights.sum (weights.getD i 0))
      ((rawShares total weights).getD · 0) i = carried total weights.sum (weights.getD i 0) := by
  rw [carry, getD_rawShares, carried]

theorem sum_exactShare {weights : List ℤ} (hpos : 0 < weights.sum) (total : ℤ) :
    ∑ i ∈ Finset.range weights.length, exactShare total weights.sum (weights.getD i 0) = total := by
  have hW : (0 : ℚ) < weights.sum := by exact_mod_cast hpos
  unfold exactShare
  rw [← Finset.sum_div, ← Finset.mul_sum, ← Int.cast_sum, ← sum_eq_sum_range,
    mul_div_cancel_right₀ _ hW.ne']

/-- The condition is that the parts add up and that each is near its share. -/
theorem dealsRight_iff {total : ℤ} {weights : List ℤ} :
    DealsRight total weights ↔
      ∑ i ∈ Finset.range weights.length, part ((rawShares total weights).getD · 0)
          (dealtTo total (rawShares total weights)).toFinset i = total ∧
        ∀ i < weights.length, |(part ((rawShares total weights).getD · 0)
          (dealtTo total (rawShares total weights)).toFinset i : ℚ) -
            exactShare total weights.sum (weights.getD i 0)| < 1 := by
  have hlength := length_rawShares total weights
  have hsub : (dealtTo total (rawShares total weights)).toFinset ⊆ Finset.range weights.length := by
    intro i hi
    rw [← hlength]
    exact Finset.mem_range.mpr (lt_of_mem_dealtTo (List.mem_toFinset.mp hi))
  have hnear : ∀ i, |(part ((rawShares total weights).getD · 0)
      (dealtTo total (rawShares total weights)).toFinset i : ℚ) -
        exactShare total weights.sum (weights.getD i 0)| < 1 ↔ _ := fun i =>
      @part_near_iff ℕ (fun i => exactShare total weights.sum (weights.getD i 0)) _ _ _ i
  have hsum : ∑ i ∈ Finset.range weights.length, part ((rawShares total weights).getD · 0)
      (dealtTo total (rawShares total weights)).toFinset i = total ↔
        0 ≤ leftoverOf total (rawShares total weights) ∧
          leftoverOf total (rawShares total weights) ≤ weights.length := by
    rw [sum_part_eq_iff hsub, ← hlength, leftover_eq_leftoverOf, card_dealtTo_eq_iff]
  rw [hsum]
  simp only [hnear, List.mem_toFinset, carry_eq_carried]
  constructor
  · rintro ⟨hnonneg, hle, hdealt, hrest⟩
    exact ⟨⟨hnonneg, hle⟩, fun i hi => ⟨hdealt i, hrest i hi⟩⟩
  · rintro ⟨⟨hnonneg, hle⟩, h⟩
    refine ⟨hnonneg, hle, fun i hi => ?_, fun i hi => (h i hi).2⟩
    exact (h i (hlength ▸ lt_of_mem_dealtTo hi)).1 hi

/-! ### No quantum is lost -/

/-- What an allocation promises of its parts. -/
structure LosesNoPenny (a : QuantizedDecimal s p) (weights : List ℤ)
    (parts : List (QuantizedDecimal s p)) : Prop where
  length : parts.length = weights.length
  sum : (parts.map value).sum = a.value
  near : ∀ wp ∈ weights.zip parts, |wp.2.value - a.value * wp.1 / weights.sum| < 1 / 10 ^ s
  sign : ∀ part ∈ parts, 0 ≤ part.value * a.value
  zero : ∀ wp ∈ weights.zip parts, wp.1 = 0 → wp.2.value = 0

/-- `sign`, as a whole number. -/
def signOf (a : QuantizedDecimal s p) : ℤ := if a.quanta < 0 then -1 else 1

theorem signOf_mul_abs (a : QuantizedDecimal s p) : a.signOf * |a.quanta| = a.quanta := by
  unfold signOf
  split_ifs with h
  · rw [abs_of_neg h]
    omega
  · rw [abs_of_nonneg (not_lt.mp h)]
    omega

theorem value_neg_iff (a : QuantizedDecimal s p) : a.value < 0 ↔ a.quanta < 0 := by
  have h10 : (0 : ℚ) < 10 ^ s := by positivity
  rw [value, div_lt_iff₀ h10, zero_mul]
  exact_mod_cast Iff.rfl

theorem abs_signOf (a : QuantizedDecimal s p) : |(a.signOf : ℚ)| = 1 := by
  unfold signOf
  split_ifs <;> norm_num

theorem abs_signOf_mul (a : QuantizedDecimal s p) {units : ℤ} (hnonneg : 0 ≤ units) :
    |a.signOf * units| = units := by
  rw [abs_mul, abs_of_nonneg hnonneg, signOf]
  split_ifs <;> simp

/-- A part with few enough digits is kept by both roundings. -/
theorem roundHalfEven_part (a : QuantizedDecimal s p) {units : ℤ} (hnonneg : 0 ≤ units)
    (hfew : units < 10 ^ 28) :
    roundHalfEven (context (context ((units : ℚ) / ((10 : ℕ) : ℚ) ^ (s : ℤ)) * a.signOf) * 10 ^ s) =
      a.signOf * units := by
  have hsigned : (units : ℚ) / ((10 : ℕ) : ℚ) ^ (s : ℤ) * (a.signOf : ℚ) =
      ((a.signOf * units : ℤ) : ℚ) / ((10 : ℕ) : ℚ) ^ (s : ℤ) := by
    push_cast
    ring
  have hfirst : context ((units : ℚ) / ((10 : ℕ) : ℚ) ^ (s : ℤ)) =
      (units : ℚ) / ((10 : ℕ) : ℚ) ^ (s : ℤ) :=
    roundSig_of_digits (by norm_num) (by rwa [abs_of_nonneg hnonneg]) _
  have hsecond : context (((a.signOf * units : ℤ) : ℚ) / ((10 : ℕ) : ℚ) ^ (s : ℤ)) =
      ((a.signOf * units : ℤ) : ℚ) / ((10 : ℕ) : ℚ) ^ (s : ℤ) :=
    roundSig_of_digits (by norm_num) (by rwa [a.abs_signOf_mul hnonneg]) _
  have hback : ((a.signOf * units : ℤ) : ℚ) / ((10 : ℕ) : ℚ) ^ (s : ℤ) * 10 ^ s =
      ((a.signOf * units : ℤ) : ℚ) := by
    rw [zpow_natCast]
    push_cast
    rw [div_mul_cancel₀ _ (pow_ne_zero s (by norm_num : (10 : ℚ) ≠ 0))]
  rw [hfirst, hsigned, hsecond, hback, roundHalfEven_intCast]

/-- One with more is rounded to more than a value can have. -/
theorem le_abs_roundHalfEven_part (a : QuantizedDecimal s p) {units : ℤ} (hmany : 10 ^ 28 ≤ units) :
    10 ^ 28 ≤ |roundHalfEven
      (context (context ((units : ℚ) / ((10 : ℕ) : ℚ) ^ (s : ℤ)) * a.signOf) * 10 ^ s)| := by
  have hscale : (0 : ℚ) < ((10 : ℕ) : ℚ) ^ (s : ℤ) := zpow_pos (by norm_num) _
  have hnonneg : 0 ≤ units := le_trans (by norm_num) hmany
  have hlarge : ((10 : ℕ) : ℚ) ^ (28 - s : ℤ) ≤ |(units : ℚ) / ((10 : ℕ) : ℚ) ^ (s : ℤ)| := by
    rw [abs_div, abs_of_pos hscale, le_div_iff₀ hscale, ← zpow_add₀ (by norm_num),
      sub_add_cancel, abs_of_nonneg (by exact_mod_cast hnonneg)]
    exact_mod_cast hmany
  have hkept := zpow_le_abs_roundSig (n := contextPrecision) (by norm_num) (by decide) hlarge
  have htwice := zpow_le_abs_roundSig (b := 10) (n := contextPrecision) (by norm_num) (by decide)
    (q := context ((units : ℚ) / ((10 : ℕ) : ℚ) ^ (s : ℤ)) * a.signOf)
    (by rw [abs_mul, a.abs_signOf, mul_one]; exact hkept)
  rw [abs_roundHalfEven]
  refine le_roundHalfEven ?_
  rw [abs_mul, abs_of_pos (by positivity : (0 : ℚ) < 10 ^ s)]
  calc (((10 : ℤ) ^ 28 : ℤ) : ℚ) = ((10 : ℕ) : ℚ) ^ (28 - s : ℤ) * 10 ^ s := by
        rw [← zpow_natCast (10 : ℚ) s]
        push_cast
        rw [← zpow_add₀ (by norm_num), sub_add_cancel]
        norm_num
    _ ≤ _ := mul_le_mul_of_nonneg_right htwice (by positivity)

/-- A whole number of quanta becomes a part exactly, with the sign of the value, or is refused. -/
theorem ofDecimal_units_ok (hp : p ≤ 28) (a : QuantizedDecimal s p) {units : ℤ}
    (hnonneg : 0 ≤ units) {part : QuantizedDecimal s p} :
    ofDecimal (context (context ((units : ℚ) * (1 / 10 ^ s)) * if a.value < 0 then -1 else 1)) =
      .ok part ↔ part.quanta = a.signOf * units := by
  have hsign : ((if a.value < 0 then -1 else 1 : ℚ)) = (a.signOf : ℚ) := by
    unfold signOf
    simp only [value_neg_iff]
    split_ifs <;> norm_num
  have hpow : (10 : ℤ) ^ p ≤ 10 ^ 28 := pow_le_pow_right₀ (by norm_num) hp
  have hunits : (units : ℚ) * (1 / 10 ^ s) = (units : ℚ) / ((10 : ℕ) : ℚ) ^ (s : ℤ) := by
    rw [zpow_natCast, mul_one_div]
    norm_num
  have hfits := part.fits
  rw [ofDecimal_ok hp, hsign, hunits]
  rcases lt_or_ge units (10 ^ 28) with hfew | hmany
  · rw [a.roundHalfEven_part hnonneg hfew]
  · -- too many digits for any value
    have hround := a.le_abs_roundHalfEven_part hmany
    constructor
    · intro h
      rw [← h] at hround
      omega
    · intro h
      rw [h, a.abs_signOf_mul hnonneg] at hfits
      omega

theorem mem_zip_map_range {α : Type} {weights : List ℤ} {f : ℕ → α} {wp : ℤ × α} :
    wp ∈ weights.zip ((List.range weights.length).map f) ↔
      ∃ i < weights.length, wp = (weights.getD i 0, f i) := by
  constructor
  · intro hwp
    obtain ⟨i, hi, rfl⟩ := List.mem_iff_getElem.mp hwp
    have hi' : i < weights.length := by simpa using hi
    refine ⟨i, hi', ?_⟩
    rw [List.getElem_zip, List.getElem_map, List.getElem_range, List.getD_eq_getElem _ _ hi']
  · rintro ⟨i, hi, rfl⟩
    refine List.mem_iff_getElem.mpr ⟨i, by simpa using hi, ?_⟩
    rw [List.getElem_zip, List.getElem_map, List.getElem_range, List.getD_eq_getElem _ _ hi]

section Parts
variable {a part : QuantizedDecimal s p} {units : ℤ}

theorem value_eq_signOf_mul (a : QuantizedDecimal s p) :
    a.value = a.signOf * (|a.quanta| : ℤ) / 10 ^ s := by
  rw [value]
  congr 1
  exact_mod_cast (signOf_mul_abs a).symm

theorem value_of_units (h : part.quanta = a.signOf * units) :
    part.value = a.signOf * units / 10 ^ s := by
  rw [value, h]
  push_cast
  rfl

theorem near_share_iff (h : part.quanta = a.signOf * units) (totalWeight weight : ℤ) :
    |part.value - a.value * weight / totalWeight| < 1 / 10 ^ s ↔
      |(units : ℚ) - exactShare |a.quanta| totalWeight weight| < 1 := by
  have h10 : (0 : ℚ) < 10 ^ s := by positivity
  have hdist : part.value - a.value * weight / totalWeight =
      a.signOf * ((units : ℚ) - exactShare |a.quanta| totalWeight weight) / 10 ^ s := by
    rw [value_of_units h, value_eq_signOf_mul, exactShare]
    ring
  rw [hdist, abs_div, abs_mul, abs_signOf, one_mul, abs_of_pos h10, div_lt_div_iff_of_pos_right h10]

/-- A part has the sign of the value when its quanta are not negative. -/
theorem mul_value_nonneg (h : part.quanta = a.signOf * units) (hnonneg : 0 ≤ units) :
    0 ≤ part.value * a.value := by
  have hprod : part.value * a.value =
      (a.signOf * a.signOf) * (units * (|a.quanta| : ℤ)) / 10 ^ s / 10 ^ s := by
    rw [value_of_units h, value_eq_signOf_mul a]
    ring
  have hunits : (0 : ℚ) ≤ units * (|a.quanta| : ℤ) := by
    exact_mod_cast mul_nonneg hnonneg (abs_nonneg _)
  have := mul_self_nonneg (a.signOf : ℚ)
  rw [hprod]
  positivity

theorem value_eq_zero (h : part.quanta = a.signOf * units) {totalWeight : ℤ}
    (hnear : |(units : ℚ) - exactShare |a.quanta| totalWeight 0| < 1) : part.value = 0 := by
  rw [exactShare, Int.cast_zero, mul_zero, zero_div, sub_zero] at hnear
  have hunits : units = 0 := Int.abs_lt_one_iff.mp (by exact_mod_cast hnear)
  rw [value_of_units h, hunits, Int.cast_zero, mul_zero, zero_div]

theorem sum_value_iff {n : ℕ} {units : ℕ → ℤ} {partOf : ℕ → QuantizedDecimal s p}
    (h : ∀ i < n, (partOf i).quanta = a.signOf * units i) :
    (((List.range n).map partOf).map value).sum = a.value ↔
      ∑ i ∈ Finset.range n, units i = |a.quanta| := by
  have h10 : (0 : ℚ) < 10 ^ s := by positivity
  have hne : (a.signOf : ℚ) ≠ 0 := abs_pos.mp (by rw [abs_signOf]; exact one_pos)
  have hall : (((List.range n).map partOf).map value).sum =
      a.signOf * ((∑ i ∈ Finset.range n, units i : ℤ) : ℚ) / 10 ^ s := by
    rw [List.map_map, sum_eq_sum_range, List.length_map, List.length_range, Int.cast_sum,
      Finset.mul_sum, Finset.sum_div]
    refine Finset.sum_congr rfl fun i hi => ?_
    have hi' := Finset.mem_range.mp hi
    rw [List.getD_eq_getElem _ _ (by simpa using hi'), List.getElem_map, List.getElem_range,
      Function.comp_apply, value_of_units (h i hi')]
  rw [hall, value_eq_signOf_mul, div_left_inj' h10.ne', mul_right_inj' hne, Int.cast_inj]

end Parts

/-- **Parts of the value's sign lose nothing** exactly when their quanta add up and each is near its
share. -/
theorem losesNoPenny_iff {a : QuantizedDecimal s p} {weights : List ℤ} {units : ℕ → ℤ}
    (hnonneg : ∀ i, 0 ≤ units i) {partOf : ℕ → QuantizedDecimal s p}
    (hpartOf : ∀ i < weights.length, (partOf i).quanta = a.signOf * units i) :
    LosesNoPenny a weights ((List.range weights.length).map partOf) ↔
      ∑ i ∈ Finset.range weights.length, units i = |a.quanta| ∧
        ∀ i < weights.length,
          |(units i : ℚ) - exactShare |a.quanta| weights.sum (weights.getD i 0)| < 1 := by
  constructor
  · intro h
    refine ⟨(sum_value_iff hpartOf).mp h.sum, fun i hi => ?_⟩
    exact (near_share_iff (hpartOf i hi) _ _).mp
      (h.near (weights.getD i 0, partOf i) (mem_zip_map_range.mpr ⟨i, hi, rfl⟩))
  · rintro ⟨htotal, hclose⟩
    refine ⟨by simp, (sum_value_iff hpartOf).mpr htotal, fun wp hwp => ?_, fun q hq => ?_,
      fun wp hwp hw => ?_⟩
    · obtain ⟨i, hi, rfl⟩ := mem_zip_map_range.mp hwp
      exact (near_share_iff (hpartOf i hi) _ _).mpr (hclose i hi)
    · obtain ⟨i, hi, rfl⟩ := List.mem_map.mp hq
      exact mul_value_nonneg (hpartOf i (List.mem_range.mp hi)) (hnonneg i)
    · obtain ⟨i, hi, rfl⟩ := mem_zip_map_range.mp hwp
      have hzero : weights.getD i 0 = 0 := hw
      exact value_eq_zero (hpartOf i hi) (hzero ▸ hclose i hi)

/-- The rounded shares are not negative, and the context keeps their remainders. -/
theorem rawShares_nonneg {total : ℤ} (htotal : 0 ≤ total) {weights : List ℤ}
    (hweights : ∀ w ∈ weights, 0 ≤ w) (hpos : 0 < weights.sum) :
    ∀ r ∈ rawShares total weights, 0 ≤ r ∧ context (Int.fract r) = Int.fract r := by
  intro r hr
  obtain ⟨w, hw, rfl⟩ := List.mem_map.mp hr
  have hprod : (0 : ℚ) ≤ (total : ℚ) * w := by exact_mod_cast mul_nonneg htotal (hweights w hw)
  have hW : (0 : ℚ) ≤ weights.sum := by exact_mod_cast hpos.le
  have hshare := div_nonneg (context_nonneg hprod) hW
  exact ⟨context_nonneg hshare, roundSig_fract (by norm_num) (by decide) hshare⟩

theorem part_rawShares_nonneg {total : ℤ} (htotal : 0 ≤ total) {weights : List ℤ}
    (hweights : ∀ w ∈ weights, 0 ≤ w) (hpos : 0 < weights.sum) (chosen : Finset ℕ) (i : ℕ) :
    0 ≤ part ((rawShares total weights).getD · 0) chosen i := by
  refine add_nonneg (Int.floor_nonneg.mpr ?_) (by split_ifs <;> omega)
  dsimp only
  by_cases hi : i < (rawShares total weights).length
  · rw [List.getD_eq_getElem _ _ hi]
    exact (rawShares_nonneg htotal hweights hpos _ (List.getElem_mem hi)).1
  · rw [List.getD_eq_default _ _ (not_lt.mp hi)]

/-- **What `allocate` returns**: the parts of the rounded shares, with the sign of the value. -/
theorem allocate_ok_iff (hp : p ≤ 28) (a : QuantizedDecimal s p) {weights : List ℤ}
    (hne : weights ≠ []) (hweights : ∀ w ∈ weights, 0 ≤ w) (hpos : 0 < weights.sum)
    {parts : List (QuantizedDecimal s p)} :
    allocate a weights = .ok parts ↔ List.Forall₂ (fun i q => q.quanta = a.signOf *
      part ((rawShares |a.quanta| weights).getD · 0)
        (dealtTo |a.quanta| (rawShares |a.quanta| weights)).toFinset i)
      (List.range weights.length) parts := by
  have hallocate : allocate a weights =
      (finalUnits |a.quanta| (rawShares |a.quanta| weights)).mapM fun units : ℤ =>
        ofDecimal (context (context ((units : ℚ) * (1 / 10 ^ s)) *
          if a.value < 0 then -1 else 1)) := by
    unfold allocate
    dsimp only
    rw [(check_ok.mpr hne : check _ _ = .ok ()), (check_ok.mpr hweights : check _ _ = .ok ()),
      (check_ok.mpr hpos : check _ _ = .ok ()), totalSmallestUnits_eq hp]
    rfl
  have hraw := rawShares_nonneg (abs_nonneg a.quanta) hweights hpos
  have hpart := part_rawShares_nonneg (abs_nonneg a.quanta) hweights hpos
  rw [hallocate, finalUnits_eq (fun r hr => (hraw r hr).1) (fun r hr => (hraw r hr).2),
    length_rawShares, mapM_ok_iff, List.forall₂_map_left_iff]
  simp only [ofDecimal_units_ok hp a (hpart _ _)]

/-! ### Values with digits enough -/

section Enough
variable {total : ℤ} {weights : List ℤ}

theorem dealsRight_of_dealt
    (h : Dealt (Finset.range weights.length) ((rawShares total weights).getD · 0) total
      (dealtTo total (rawShares total weights)).toFinset)
    (hnear : ∀ i ∈ Finset.range weights.length, |(part ((rawShares total weights).getD · 0)
      (dealtTo total (rawShares total weights)).toFinset i : ℚ) -
        exactShare total weights.sum (weights.getD i 0)| < 1) : DealsRight total weights :=
  dealsRight_iff.mpr ⟨(sum_part_eq_iff h.subset).mpr h.card,
    fun i hi => hnear i (Finset.mem_range.mpr hi)⟩

/-- **The dealing is right when the context carries no share over a whole number**, and none onto or
off one. -/
theorem dealsRight_of_keeps (hpos : 0 < weights.sum)
    (h : ∀ w ∈ weights,
      ⌊rawShare total weights.sum w⌋ = ⌊exactShare total weights.sum w⌋ ∧
        (Int.fract (rawShare total weights.sum w) = 0 ↔
          Int.fract (exactShare total weights.sum w) = 0)) : DealsRight total weights := by
  have hkeeps : KeepsWholes (Finset.range weights.length)
      (fun i => exactShare total weights.sum (weights.getD i 0))
      ((rawShares total weights).getD · 0) := by
    intro i hi
    have hi' := Finset.mem_range.mp hi
    dsimp only
    rw [getD_rawShares, List.getD_eq_getElem _ _ hi']
    exact h _ (List.getElem_mem hi')
  have hsum := sum_exactShare hpos total
  have hlength := length_rawShares total weights
  obtain ⟨hnonneg, hle⟩ := hkeeps.leftover_mem hsum
  have hdealt := dealt_dealtTo (hlength ▸ hnonneg) (hlength ▸ hle)
  rw [hlength] at hdealt
  exact dealsRight_of_dealt hdealt fun i hi => hdealt.near_of_keeps hkeeps hsum hi

/-- **The dealing is right for small values**: the quanta, once for every weight and once more, stay
below `10 ^ 27`. -/
theorem dealsRight_of_small (htotal : 0 ≤ total) (hweights : ∀ w ∈ weights, 0 ≤ w)
    (hpos : 0 < weights.sum) (hsmall : (weights.length + 1) * total < 10 ^ 27) :
    DealsRight total weights := by
  have hW : (0 : ℚ) < weights.sum := by exact_mod_cast hpos
  have htotal' : (0 : ℚ) ≤ total := by exact_mod_cast htotal
  have hsum := sum_exactShare hpos total
  have hmem : ∀ i ∈ Finset.range weights.length, weights.getD i 0 ∈ weights := by
    intro i hi
    rw [List.getD_eq_getElem _ _ (Finset.mem_range.mp hi)]
    exact List.getElem_mem _
  -- every share is off by at most its relative error, all together by that of the total
  have hclose : Close (Finset.range weights.length)
      (fun i => exactShare total weights.sum (weights.getD i 0))
      ((rawShares total weights).getD · 0)
      (fun i => exactShare total weights.sum (weights.getD i 0) * (1 / 10 ^ 27 + 1 / (4 * 10 ^ 54)))
      total (total * (1 / 10 ^ 27 + 1 / (4 * 10 ^ 54))) := by
    refine ⟨hsum, fun i hi => ?_, fun i hi => ?_, ?_⟩
    · rw [getD_rawShares]
      exact abs_rawShare_sub_le htotal (hweights _ (hmem i hi)) hpos
    · have hle : ((weights.getD i 0 : ℤ) : ℚ) ≤ weights.sum := by
        exact_mod_cast List.single_le_sum hweights _ (hmem i hi)
      have : exactShare total weights.sum (weights.getD i 0) ≤ total := by
        rw [exactShare, div_le_iff₀ hW]
        gcongr
      gcongr
    · rw [← Finset.sum_mul, hsum, Finset.card_range]
      have hle : ((weights.length : ℚ) + 1) * total ≤ 10 ^ 27 - 1 := by
        have : ((weights.length : ℤ) + 1) * total ≤ 10 ^ 27 - 1 := by omega
        exact_mod_cast this
      nlinarith
  have hlength := length_rawShares total weights
  have hdealt := dealt_dealtTo (hlength ▸ hclose.leftover_nonneg) (hlength ▸ hclose.leftover_le)
  rw [hlength] at hdealt
  exact dealsRight_of_dealt hdealt fun i hi => hdealt.near hclose hi

/-- An amount and a price always have few enough digits, up to a thousand million weights. -/
theorem dealsRight_of_length (hp : p ≤ 18) (a : QuantizedDecimal s p)
    (hweights : ∀ w ∈ weights, 0 ≤ w) (hpos : 0 < weights.sum) (h : weights.length < 10 ^ 9) :
    DealsRight |a.quanta| weights := by
  have hpow : (10 : ℤ) ^ p ≤ 10 ^ 18 := pow_le_pow_right₀ (by norm_num) hp
  have hfit : |a.quanta| < 10 ^ 18 := a.fits.trans_le hpow
  have hlength : (weights.length : ℤ) + 1 ≤ 10 ^ 9 := by omega
  refine dealsRight_of_small (abs_nonneg _) hweights hpos ?_
  calc ((weights.length : ℤ) + 1) * |a.quanta| ≤ 10 ^ 9 * |a.quanta| := by gcongr
    _ < 10 ^ 27 := by omega

end Enough

/-! ### Allocation -/

end QuantizedDecimal

end Trueup.Core
