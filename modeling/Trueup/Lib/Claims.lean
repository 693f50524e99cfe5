import Mathlib.Algebra.BigOperators.Group.Finset.Basic
import Mathlib.Algebra.Order.BigOperators.Group.Finset
import Mathlib.Tactic.Linarith

/-! # Claims on a divided stock

A claim may be served from any place of a set. A stock covers some claims when, for every set of
places, the claims that can be served from within it alone ask for no more than it holds. -/

namespace Trueup.Lib

/-- An amount that is claimed from a set of places. -/
structure Claim (ι : Type) where
  places : Finset ι
  amount : ℤ

variable {ι : Type} [DecidableEq ι] {claims rest : List (Claim ι)} {stock stock' taken : ι → ℤ}

/-- What is claimed from within a set of places. -/
def demand (claims : List (Claim ι)) (S : Finset ι) : ℤ :=
  (claims.map fun c => if c.places ⊆ S then c.amount else 0).sum

/-- What the claims that touch a set of places ask for. -/
def touching (claims : List (Claim ι)) (S : Finset ι) : ℤ :=
  (claims.map fun c => if (c.places ∩ S).Nonempty then c.amount else 0).sum

/-- No set of places is claimed beyond what it holds. -/
def Covers (stock : ι → ℤ) (claims : List (Claim ι)) : Prop :=
  ∀ S, demand claims S ≤ ∑ i ∈ S, stock i

theorem demand_cons (c : Claim ι) (claims : List (Claim ι)) (S : Finset ι) :
    demand (c :: claims) S = (if c.places ⊆ S then c.amount else 0) + demand claims S := rfl

theorem touching_cons (c : Claim ι) (claims : List (Claim ι)) (S : Finset ι) :
    touching (c :: claims) S =
      (if (c.places ∩ S).Nonempty then c.amount else 0) + touching claims S := rfl

theorem demand_perm {claims' : List (Claim ι)} (h : claims.Perm claims') (S : Finset ι) :
    demand claims S = demand claims' S := (h.map _).sum_eq

theorem Covers.perm {claims' : List (Claim ι)} (h : Covers stock claims) (hp : claims.Perm claims') :
    Covers stock claims' := fun S => by rw [← demand_perm hp]; exact h S

theorem covers_nil (h : ∀ i, 0 ≤ stock i) : Covers stock [] := fun _ =>
  Finset.sum_nonneg fun i _ => h i

theorem Covers.mono (h : Covers stock claims) (hle : ∀ i, stock i ≤ stock' i) :
    Covers stock' claims := fun S => (h S).trans (Finset.sum_le_sum fun i _ => hle i)

/-- A claim within a set touches another set or lies outside of it. -/
theorem demand_le_touching (hamount : ∀ c ∈ claims, 0 ≤ c.amount) (S D : Finset ι) :
    demand claims S ≤ touching claims D + demand claims (S \ D) := by
  induction claims with
  | nil => exact le_rfl
  | cons c claims ih =>
    have hc := hamount c List.mem_cons_self
    have hrest := ih fun c' hc' => hamount c' (List.mem_cons_of_mem _ hc')
    have hone : (if c.places ⊆ S then c.amount else 0) ≤
        (if (c.places ∩ D).Nonempty then c.amount else 0) +
          if c.places ⊆ S \ D then c.amount else 0 := by
      by_cases htouch : (c.places ∩ D).Nonempty
      · rw [if_pos htouch]
        split_ifs <;> omega
      · have hiff : c.places ⊆ S \ D ↔ c.places ⊆ S := by
          rw [Finset.subset_sdiff, Finset.disjoint_iff_inter_eq_empty,
            ← Finset.not_nonempty_iff_eq_empty]
          exact and_iff_left htouch
        rw [if_neg htouch, zero_add]
        simp only [hiff]
        exact le_rfl
    rw [demand_cons, demand_cons, touching_cons]
    omega

/-- **A new claim** is covered if its places hold it besides all claims that touch them. -/
theorem Covers.cons {c : Claim ι} (h : Covers stock claims)
    (hamount : ∀ c' ∈ claims, 0 ≤ c'.amount)
    (hroom : c.amount + touching claims c.places ≤ ∑ i ∈ c.places, stock i) :
    Covers stock (c :: claims) := by
  intro S
  rw [demand_cons]
  by_cases hwithin : c.places ⊆ S
  · rw [if_pos hwithin, ← Finset.sum_sdiff hwithin]
    have hsplit := demand_le_touching hamount S c.places
    have houtside := h (S \ c.places)
    omega
  · rw [if_neg hwithin, zero_add]
    exact h S

theorem demand_sdiff {S T : Finset ι}
    (h : ∀ c ∈ claims, c.places ⊆ S → Disjoint c.places T) :
    demand claims (S \ T) = demand claims S := by
  induction claims with
  | nil => rfl
  | cons c claims ih =>
    have hiff : c.places ⊆ S \ T ↔ c.places ⊆ S := by
      rw [Finset.subset_sdiff]
      exact ⟨And.left, fun hS => ⟨hS, h c List.mem_cons_self hS⟩⟩
    rw [demand_cons, demand_cons, ih fun c' hc' => h c' (List.mem_cons_of_mem _ hc')]
    simp only [hiff]

/-- **A claim is served in part.** The rest stays covered if every other claim that touches a place
that is taken from contains all places of the claim. -/
theorem Covers.serve {c : Claim ι} {served : ℤ} (h : Covers stock (c :: rest))
    (hstock : ∀ i, 0 ≤ stock i - taken i) (houtside : ∀ i, i ∉ c.places → taken i = 0)
    (hserved : ∑ i ∈ c.places, taken i = served)
    (hnested : ∀ c' ∈ rest, ∀ i ∈ c'.places, taken i ≠ 0 → c.places ⊆ c'.places) :
    Covers (fun i => stock i - taken i) (⟨c.places, c.amount - served⟩ :: rest) := by
  intro S
  rw [demand_cons, Finset.sum_sub_distrib]
  by_cases hwithin : c.places ⊆ S
  · -- the claim and the places lose the same
    have hall : ∑ i ∈ S, taken i = served := by
      rw [← hserved, ← Finset.sum_subset hwithin fun i _ hi => houtside i hi]
    have hbefore := h S
    rw [demand_cons, if_pos hwithin] at hbefore
    rw [if_pos hwithin, hall]
    dsimp only
    omega
  · -- no claim within the set touches a place that is taken from
    set T := S.filter fun i => taken i ≠ 0 with hT
    have hfar : ∀ c' ∈ rest, c'.places ⊆ S → Disjoint c'.places T := by
      intro c' hc' hS
      rw [Finset.disjoint_left]
      intro i hi hiT
      rw [hT, Finset.mem_filter] at hiT
      exact hwithin ((hnested c' hc' i hi hiT.2).trans hS)
    have hbefore := h (S \ T)
    have hnot : ¬ c.places ⊆ S \ T := fun hsub => hwithin (hsub.trans Finset.sdiff_subset)
    rw [demand_cons, if_neg hnot, demand_sdiff hfar] at hbefore
    have hrest : ∑ i ∈ S \ T, taken i = 0 := by
      refine Finset.sum_eq_zero fun i hi => ?_
      rw [hT, Finset.mem_sdiff, Finset.mem_filter, not_and_not_right] at hi
      exact hi.2 hi.1
    have hleft : 0 ≤ ∑ i ∈ T, (stock i - taken i) := Finset.sum_nonneg fun i _ => hstock i
    have hsub : T ⊆ S := Finset.filter_subset _ _
    rw [if_neg hwithin, ← Finset.sum_sdiff hsub, ← Finset.sum_sdiff (f := taken) hsub, hrest]
    rw [Finset.sum_sub_distrib] at hleft
    omega

end Trueup.Lib
