import Mathlib.Order.Interval.Finset.Nat
import Trueup.Lib.Transaction

/-! # Walks that look a bounded way ahead

A walk along places `1, 2, 3, …`, each of which answers `true`, `false` or with an error. A step goes
to the next place that answers `true`, and fails when `w` places in a row answer `false`.

* `walk_reaches`, `Reaches.walk`: where a walk of `n` steps ends.
* `walk_of_gap`: it fails at the first `w` places in a row that answer `false`.
* `exists_walk`: otherwise it ends, if the places on the way have answers.
* `Reaches.reverse`: the same walk backwards. -/

namespace Trueup.Lib.BoundedSearch

open Trueup.Lib.Transaction

variable {ε : Type} (answers : ℕ → Except ε Bool) (exhausted : ε) (w : ℕ)

/-- The next place after `k` that answers `true`, among `fuel` many. -/
def search : (fuel k : ℕ) → Except ε ℕ
  | 0, _ => .error exhausted
  | fuel + 1, k => do
    if ← answers (k + 1) then return k + 1
    search fuel (k + 1)

/-- `n` searches, each from where the last one ended. -/
def walk : (n k : ℕ) → Except ε ℕ
  | 0, k => .ok k
  | n + 1, k => do walk n (← search answers exhausted w k)

def isHit (j : ℕ) : Bool := match answers j with
  | .ok b => b
  | .error _ => false

/-- How many places after `k` up to `m` answer `true`. -/
def hits (k m : ℕ) : ℕ := ((Finset.Ioc k m).filter fun j => isHit answers j).card

def Answered (k m : ℕ) : Prop := ∀ j, k < j → j ≤ m → ∃ b, answers j = .ok b

/-- All places after `k` up to `m` answer `false`. -/
def Misses (k m : ℕ) : Prop := ∀ j, k < j → j ≤ m → answers j = .ok false

/-- Somewhere on the way of `n` steps, `w` places in a row answer `false`. -/
def Gap (n k : ℕ) : Prop := ∃ x, k ≤ x ∧ hits answers k x < n ∧ Answered answers k x ∧
  Misses answers x (x + w)

/-- Somewhere on the way of `n` steps, a place answers with an error. -/
def Unanswered (n k : ℕ) : Prop := ∃ x, k ≤ x ∧ hits answers k x < n ∧ Answered answers k x ∧
  ∃ e, answers (x + 1) = .error e

/-- Where a walk of `n` steps from `k` ends. -/
structure Reaches (n k m : ℕ) : Prop where
  le : k ≤ m
  hits_eq : hits answers k m = n
  start : n = 0 → m = k
  last : 0 < n → answers m = .ok true
  answered : Answered answers k m
  dense : ∀ x, k ≤ x → x + w ≤ m → ∃ j, x < j ∧ j ≤ x + w ∧ answers j = .ok true

variable {answers exhausted w} {n k m x fuel : ℕ} {e : ε}

/-! ### The hits -/

theorem isHit_iff {j : ℕ} : isHit answers j ↔ answers j = .ok true := by
  unfold isHit
  cases answers j <;> simp

theorem hits_add (hkm : k ≤ m) (hmx : m ≤ x) :
    hits answers k x = hits answers k m + hits answers m x := by
  unfold hits
  rw [← Finset.Ioc_union_Ioc_eq_Ioc hkm hmx, Finset.filter_union, Finset.card_union_of_disjoint]
  exact Finset.disjoint_filter_filter (Finset.Ioc_disjoint_Ioc_of_le le_rfl)

theorem hits_mono (hkm : k ≤ m) (hmx : m ≤ x) : hits answers k m ≤ hits answers k x := by
  rw [hits_add hkm hmx]
  exact Nat.le_add_right _ _

theorem Misses.hits (h : Misses answers k m) : hits answers k m = 0 := by
  refine Finset.card_eq_zero.mpr (Finset.filter_eq_empty_iff.mpr fun j hj => ?_)
  obtain ⟨hlow, hhigh⟩ := Finset.mem_Ioc.mp hj
  rw [isHit_iff, h j hlow hhigh]
  simp

/-- The places up to the first hit. -/
theorem hits_first (hkm : k < m) (hmisses : ∀ j, k < j → j < m → answers j = .ok false)
    (hhit : answers m = .ok true) : hits answers k m = 1 := by
  refine Finset.card_eq_one.mpr ⟨m, Finset.ext fun j => ?_⟩
  rw [Finset.mem_filter, Finset.mem_Ioc, isHit_iff, Finset.mem_singleton]
  constructor
  · rintro ⟨⟨hlow, hhigh⟩, hj⟩
    by_contra hne
    rw [hmisses j hlow (by omega)] at hj
    simp at hj
  · rintro rfl
    exact ⟨⟨hkm, le_rfl⟩, hhit⟩

/-! ### One search -/

theorem search_ok (h : search answers exhausted fuel k = .ok m) : k < m ∧ m ≤ k + fuel ∧
    answers m = .ok true ∧ ∀ j, k < j → j < m → answers j = .ok false := by
  induction fuel generalizing k with
  | zero => cases h
  | succ fuel ih =>
    obtain ⟨b, hb, h⟩ := except_bind_ok.mp h
    cases b with
    | true =>
      cases h
      exact ⟨by omega, by omega, hb, fun j _ _ => by omega⟩
    | false =>
      obtain ⟨hlow, hhigh, hhit, hmisses⟩ := ih h
      refine ⟨by omega, by omega, hhit, fun j hj hjm => ?_⟩
      by_cases heq : j = k + 1
      · rw [heq, hb]
      · exact hmisses j (by omega) hjm

theorem search_error (h : search answers exhausted fuel k = .error e) :
    (e = exhausted ∧ Misses answers k (k + fuel)) ∨
    ∃ x, k ≤ x ∧ x < k + fuel ∧ Misses answers k x ∧ answers (x + 1) = .error e := by
  induction fuel generalizing k with
  | zero =>
    cases h
    exact Or.inl ⟨rfl, fun j _ _ => by omega⟩
  | succ fuel ih =>
    rw [search] at h
    cases hb : answers (k + 1) with
    | error e' =>
      rw [hb] at h
      cases h
      exact Or.inr ⟨k, le_rfl, by omega, fun j _ _ => by omega, hb⟩
    | ok b =>
      rw [hb] at h
      cases b with
      | true => cases h
      | false =>
        have hextend : ∀ {x}, Misses answers (k + 1) x → Misses answers k x := by
          intro x hx j hj hjx
          by_cases heq : j = k + 1
          · rw [heq, hb]
          · exact hx j (by omega) hjx
        rcases ih h with ⟨rfl, hmisses⟩ | ⟨x, hlow, hhigh, hmisses, herror⟩
        · refine Or.inl ⟨rfl, hextend ?_⟩
          rwa [Nat.add_right_comm] at hmisses
        · exact Or.inr ⟨x, by omega, by omega, hextend hmisses, herror⟩

/-! ### Walks -/

theorem Answered.of_misses (h : ∀ j, k < j → j < m → answers j = .ok false)
    (hhit : answers m = .ok true) : Answered answers k m := by
  intro j hj hjm
  by_cases heq : j = m
  · exact ⟨true, heq ▸ hhit⟩
  · exact ⟨false, h j hj (by omega)⟩

theorem Answered.trans (h : Answered answers k m) (h' : Answered answers m x) :
    Answered answers k x := by
  intro j hj hjx
  by_cases hjm : j ≤ m
  · exact h j hj hjm
  · exact h' j (by omega) hjx

/-- **Where a walk ends.** -/
theorem walk_reaches (hw : 0 < w) (h : walk answers exhausted w n k = .ok m) :
    Reaches answers w n k m := by
  induction n generalizing k with
  | zero =>
    cases h
    refine ⟨le_rfl, ?_, fun _ => rfl, fun hpos => by omega, fun j _ _ => by omega,
      fun x _ _ => by omega⟩
    exact Misses.hits fun j _ _ => by omega
  | succ n ih =>
    obtain ⟨k', hsearch, h⟩ := except_bind_ok.mp h
    obtain ⟨hlow, hhigh, hhit, hmisses⟩ := search_ok hsearch
    have hrest := ih h
    have hle := hrest.le
    refine ⟨by omega, ?_, fun hzero => by omega, fun _ => ?_,
      (Answered.of_misses hmisses hhit).trans hrest.answered, fun x hx hxm => ?_⟩
    · rw [hits_add hlow.le hle, hits_first hlow hmisses hhit, hrest.hits_eq, Nat.add_comm]
    · rcases Nat.eq_zero_or_pos n with hzero | hpos
      · rw [hrest.start hzero]
        exact hhit
      · exact hrest.last hpos
    · by_cases hxk : x < k'
      · exact ⟨k', hxk, by omega, hhit⟩
      · exact hrest.dense x (by omega) hxm

/-- An error comes from a gap, or from a place on the way. -/
theorem walk_error (h : walk answers exhausted w n k = .error e) :
    Gap answers w n k ∨ Unanswered answers n k := by
  induction n generalizing k with
  | zero => cases h
  | succ n ih =>
    have hzero : hits answers k k = 0 := Misses.hits fun j _ _ => by omega
    rw [walk] at h
    cases hsearch : search answers exhausted w k with
    | error e' =>
      rcases search_error hsearch with ⟨-, hmisses⟩ | ⟨x, hlow, -, hmisses, herror⟩
      · exact Or.inl ⟨k, le_rfl, by omega, fun j _ _ => by omega, hmisses⟩
      · have hnone := hmisses.hits
        exact Or.inr ⟨x, hlow, by omega, fun j hj hjx => ⟨false, hmisses j hj hjx⟩, e', herror⟩
    | ok k' =>
      rw [hsearch] at h
      obtain ⟨hlow, -, hhit, hmisses⟩ := search_ok hsearch
      have hone := hits_first hlow hmisses hhit
      have hanswered := Answered.of_misses hmisses hhit
      rcases ih h with ⟨x, hx, hhits, hrest, hgap⟩ | ⟨x, hx, hhits, hrest, herror⟩
      · refine Or.inl ⟨x, by omega, ?_, hanswered.trans hrest, hgap⟩
        rw [hits_add hlow.le hx]
        omega
      · refine Or.inr ⟨x, by omega, ?_, hanswered.trans hrest, herror⟩
        rw [hits_add hlow.le hx]
        omega

/-- **A gap on the way** exhausts the search that meets it. -/
theorem walk_of_gap (h : Gap answers w n k) : walk answers exhausted w n k = .error exhausted := by
  induction n generalizing k with
  | zero =>
    obtain ⟨x, -, hhits, -⟩ := h
    omega
  | succ n ih =>
    obtain ⟨x, hx, hhits, hanswered, hgap⟩ := h
    rw [walk]
    cases hsearch : search answers exhausted w k with
    | error e =>
      rcases search_error hsearch with ⟨rfl, -⟩ | ⟨y, hlow, hhigh, -, herror⟩
      · rfl
      · -- the place with the error would lie before the gap or in it
        by_cases hyx : y + 1 ≤ x
        · obtain ⟨b, hb⟩ := hanswered (y + 1) (by omega) hyx
          rw [hb] at herror
          cases herror
        · rw [hgap (y + 1) (by omega) (by omega)] at herror
          cases herror
    | ok k' =>
      obtain ⟨hlow, hhigh, hhit, hmisses⟩ := search_ok hsearch
      have hone := hits_first hlow hmisses hhit
      have hk' : k' ≤ x := by
        by_contra hlt
        rw [hgap k' (by omega) (by omega)] at hhit
        simp at hhit
      rw [hits_add hlow.le hk'] at hhits
      exact ih ⟨x, hk', by omega, fun j hj hjx => hanswered j (by omega) hjx, hgap⟩

/-- **A walk ends** if it meets no gap and no error. -/
theorem exists_walk (exhausted : ε) (hgap : ¬ Gap answers w n k)
    (hanswered : ¬ Unanswered answers n k) : ∃ m, walk answers exhausted w n k = .ok m := by
  cases h : walk answers exhausted w n k with
  | ok m => exact ⟨m, rfl⟩
  | error e => exact absurd (walk_error h) (not_or.mpr ⟨hgap, hanswered⟩)

/-! ### Where a walk ends, once more -/

theorem Reaches.lt_of_hits (h : Reaches answers w n k m) (hhits : hits answers k x < n) : x < m := by
  by_contra hle
  have hmono : hits answers k m ≤ hits answers k x := hits_mono h.le (not_lt.mp hle)
  rw [h.hits_eq] at hmono
  omega

theorem Reaches.not_gap (h : Reaches answers w n k m) : ¬ Gap answers w n k := by
  rintro ⟨x, hx, hhits, -, hgap⟩
  have hxm := h.lt_of_hits hhits
  obtain ⟨j, hlow, hhigh, hhit⟩ : ∃ j, x < j ∧ j ≤ x + w ∧ answers j = .ok true := by
    by_cases hw : x + w ≤ m
    · exact h.dense x hx hw
    · exact ⟨m, hxm, by omega, h.last (by omega)⟩
  rw [hgap j hlow hhigh] at hhit
  simp at hhit

theorem Reaches.not_unanswered (h : Reaches answers w n k m) : ¬ Unanswered answers n k := by
  rintro ⟨x, hx, hhits, -, e, herror⟩
  obtain ⟨b, hb⟩ := h.answered (x + 1) (by omega) (h.lt_of_hits hhits)
  rw [hb] at herror
  cases herror

theorem Reaches.not_lt {m' : ℕ} (h : Reaches answers w n k m) (h' : Reaches answers w n k m') :
    ¬ m < m' := by
  intro hlt
  rcases Nat.eq_zero_or_pos n with hzero | hpos
  · rw [h.start hzero, h'.start hzero] at hlt
    omega
  · -- the end would be one hit more
    have hle := h.le
    have hend : 1 ≤ hits answers m m' :=
      Finset.card_pos.mpr ⟨m', Finset.mem_filter.mpr ⟨Finset.mem_Ioc.mpr ⟨hlt, le_rfl⟩,
        isHit_iff.mpr (h'.last hpos)⟩⟩
    have hadd : hits answers k m' = hits answers k m + hits answers m m' := hits_add h.le hlt.le
    rw [h.hits_eq, h'.hits_eq] at hadd
    omega

/-- There is one place where `n` steps end, and the walk ends there. -/
theorem Reaches.walk (hw : 0 < w) (h : Reaches answers w n k m) :
    walk answers exhausted w n k = .ok m := by
  obtain ⟨m', hwalk⟩ := exists_walk exhausted h.not_gap h.not_unanswered
  have h' := walk_reaches hw hwalk
  have hle := h.not_lt h'
  have hle' := h'.not_lt h
  rw [hwalk, show m' = m by omega]

theorem Reaches.lt (h : Reaches answers w n k m) (hpos : 0 < n) : k < m := by
  refine h.lt_of_hits ?_
  rwa [Misses.hits fun j _ _ => by omega]

theorem Reaches.congr {answers' : ℕ → Except ε Bool} (h : Reaches answers w n k m)
    (heq : ∀ j, k < j → j ≤ m → answers' j = answers j) : Reaches answers' w n k m := by
  refine ⟨h.le, ?_, h.start, fun hpos => ?_, fun j hj hjm => ?_, fun x hx hxm => ?_⟩
  · rw [← h.hits_eq]
    refine congrArg Finset.card (Finset.filter_congr fun j hj => ?_)
    obtain ⟨hlow, hhigh⟩ := Finset.mem_Ioc.mp hj
    rw [isHit_iff, isHit_iff, heq j hlow hhigh]
  · rw [heq m (h.lt hpos) le_rfl]
    exact h.last hpos
  · rw [heq j hj hjm]
    exact h.answered j hj hjm
  · obtain ⟨j, hlow, hhigh, hhit⟩ := h.dense x hx hxm
    exact ⟨j, hlow, hhigh, by rw [heq j (by omega) (by omega), hhit]⟩

theorem hits_reverse (hstart : answers 0 = .ok true) (hlast : answers m = .ok true) :
    hits (fun j => answers (m - j)) 0 m = hits answers 0 m := by
  obtain ⟨H, hH⟩ : ∃ H, H = (Finset.range (m + 1)).filter fun j => isHit answers j := ⟨_, rfl⟩
  have hmem : ∀ j, j ∈ H ↔ j ≤ m ∧ answers j = .ok true := by
    intro j
    rw [hH, Finset.mem_filter, Finset.mem_range, isHit_iff, Nat.lt_succ_iff]
  have hforward : hits answers 0 m = (H.erase 0).card := by
    refine congrArg Finset.card (Finset.ext fun j => ?_)
    rw [Finset.mem_filter, Finset.mem_Ioc, isHit_iff, Finset.mem_erase, hmem, Nat.pos_iff_ne_zero,
      and_assoc]
  have hbackward : hits (fun j => answers (m - j)) 0 m = (H.erase m).card := by
    refine Finset.card_nbij' (m - ·) (m - ·) ?_ ?_ ?_ ?_
    · intro j hj
      obtain ⟨hj, hhit⟩ := Finset.mem_filter.mp hj
      obtain ⟨hlow, hhigh⟩ := Finset.mem_Ioc.mp hj
      have hne : m - j ≠ m := by omega
      exact Finset.mem_erase.mpr ⟨hne, (hmem _).mpr ⟨Nat.sub_le m j, isHit_iff.mp hhit⟩⟩
    · intro j hj
      obtain ⟨hne, hj⟩ := Finset.mem_erase.mp hj
      obtain ⟨hle, hhit⟩ := (hmem j).mp hj
      have hpos : 0 < m - j := by omega
      refine Finset.mem_filter.mpr ⟨Finset.mem_Ioc.mpr ⟨hpos, Nat.sub_le m j⟩, isHit_iff.mpr ?_⟩
      show answers (m - (m - j)) = _
      rw [Nat.sub_sub_self hle, hhit]
    · intro j hj
      have hj := Finset.mem_Ioc.mp (Finset.mem_filter.mp hj).1
      exact Nat.sub_sub_self hj.2
    · intro j hj
      exact Nat.sub_sub_self ((hmem j).mp (Finset.mem_of_mem_erase hj)).1
  rw [hforward, hbackward, Finset.card_erase_of_mem ((hmem m).mpr ⟨le_rfl, hlast⟩),
    Finset.card_erase_of_mem ((hmem 0).mpr ⟨Nat.zero_le m, hstart⟩)]

/-- **The walk backwards**, between two hits. -/
theorem Reaches.reverse (hw : 0 < w) (h : Reaches answers w n 0 m) (hstart : answers 0 = .ok true) :
    Reaches (fun j => answers (m - j)) w n 0 m := by
  have hlast : answers m = .ok true := by
    rcases Nat.eq_zero_or_pos n with hzero | hpos
    · rw [h.start hzero, hstart]
    · exact h.last hpos
  refine ⟨h.le, (hits_reverse hstart hlast).trans h.hits_eq, h.start, fun _ => ?_, fun j hj hjm => ?_,
    fun x hx hxm => ?_⟩
  · rw [Nat.sub_self, hstart]
  · by_cases heq : j = m
    · exact ⟨true, by rw [heq, Nat.sub_self, hstart]⟩
    · exact h.answered (m - j) (by omega) (by omega)
  · -- the places after `x` are those before `m - x`
    by_cases heq : x + w = m
    · exact ⟨m, by omega, by omega, by rw [Nat.sub_self, hstart]⟩
    · obtain ⟨j, hlow, hhigh, hhit⟩ := h.dense (m - x - w - 1) (by omega) (by omega)
      exact ⟨m - j, by omega, by omega, by rw [Nat.sub_sub_self (by omega), hhit]⟩

end Trueup.Lib.BoundedSearch
