import Mathlib.Algebra.BigOperators.Group.List.Basic
import Mathlib.Algebra.BigOperators.Ring.List
import Mathlib.Algebra.Order.BigOperators.Group.List
import Mathlib.Algebra.Order.Group.Unbundled.Int
import Mathlib.Algebra.Order.Ring.Int
import Mathlib.Algebra.Order.Ring.Rat
import Mathlib.Data.Int.Basic
import Mathlib.Tactic.Ring

/-! # Sums over selected elements -/

namespace Trueup.Lib

variable {α : Type}

theorem sum_filter_map (p : α → Bool) (g : α → ℤ) : ∀ l : List α,
    ((l.filter p).map g).sum = (l.map fun a => if p a then g a else 0).sum
  | [] => rfl
  | a :: l => by
    rw [List.filter_cons, List.map_cons, List.sum_cons, ← sum_filter_map p g l]
    split_ifs with h
    · simp
    · simp

theorem sum_filter_add_filter_not (p : α → Prop) [DecidablePred p] (g : α → ℤ)
    (l : List α) : ((l.filter (¬ p ·)).map g).sum + ((l.filter (p ·)).map g).sum =
      (l.map g).sum := by
  rw [sum_filter_map, sum_filter_map, ← List.sum_map_add]
  refine congrArg List.sum (List.map_congr_left fun a _ => ?_)
  by_cases ha : p a <;> simp [ha]

theorem abs_sum_map_le {f bound : α → ℤ} : ∀ {l : List α}, (∀ a ∈ l, |f a| ≤ bound a) →
    |(l.map f).sum| ≤ (l.map bound).sum
  | [], _ => by simp
  | a :: l, h => by
    have hrest := abs_sum_map_le fun b hb => h b (List.mem_cons_of_mem _ hb)
    have hfirst := h a List.mem_cons_self
    have htriangle := abs_add_le (f a) (l.map f).sum
    rw [List.map_cons, List.map_cons, List.sum_cons, List.sum_cons]
    omega

theorem abs_sum_map_sub_le {f g : α → ℚ} {ε : ℚ} : ∀ {l : List α}, (∀ a ∈ l, |f a - g a| ≤ ε) →
    |(l.map f).sum - (l.map g).sum| ≤ l.length * ε
  | [], _ => by simp
  | a :: l, h => by
    have hrest := abs_sum_map_sub_le fun b hb => h b (List.mem_cons_of_mem _ hb)
    have hfirst := h a List.mem_cons_self
    rw [List.map_cons, List.map_cons, List.sum_cons, List.sum_cons, List.length_cons]
    calc |f a + (l.map f).sum - (g a + (l.map g).sum)|
        = |(f a - g a) + ((l.map f).sum - (l.map g).sum)| := by rw [add_sub_add_comm]
      _ ≤ |f a - g a| + |(l.map f).sum - (l.map g).sum| := abs_add_le _ _
      _ ≤ ε + l.length * ε := add_le_add hfirst hrest
      _ = (l.length + 1 : ℕ) * ε := by push_cast; ring

/-- Of some ratios, one is at least their mediant. -/
theorem exists_ratio_ge {l : List α} {f g : α → ℤ}
    (h : ∀ a ∈ l, 0 ≤ g a ∧ (g a = 0 → f a = 0)) (hpos : 0 < (l.map g).sum) :
    ∃ a ∈ l, 0 < g a ∧ (l.map f).sum * g a ≤ f a * (l.map g).sum := by
  by_contra hall
  push Not at hall
  obtain ⟨b, hb, hgb⟩ : ∃ b ∈ l, 0 < g b := by
    by_contra hnone
    push Not at hnone
    have hzero : (l.map g).sum = 0 := List.sum_eq_zero fun x hx => by
      obtain ⟨a, ha, rfl⟩ := List.mem_map.mp hx
      exact le_antisymm (hnone a ha) (h a ha).1
    omega
  have hlt : (l.map fun a => f a * (l.map g).sum).sum < (l.map fun a => (l.map f).sum * g a).sum := by
    refine List.sum_lt_sum _ _ (fun a ha => ?_) ⟨b, hb, hall b hb hgb⟩
    obtain ⟨hg, hzero⟩ := h a ha
    rcases hg.lt_or_eq with hg | hg
    · exact (hall a ha hg).le
    · rw [hzero hg.symm, ← hg]
      simp
  rw [List.sum_map_mul_right, List.sum_map_mul_left] at hlt
  exact lt_irrefl _ hlt

end Trueup.Lib
