import Mathlib.Data.List.Sort
import Mathlib.Order.RelClasses

/-! # Keyset pagination

Rows are read in the order of a unique key, some at a time: each page takes the rows past the key of
the last one read. Rows may be inserted between the pages.

* `isPage_page`: what one page has.
* `walk_sorted`, `walk_covers`: the pages of a walk are in order, and have every row that was there at
  its start when there is no page after them.
* `exists_walk_finished`: the walk ends when the insertions do. -/

namespace Trueup.Lib.Keyset

variable {ρ κ : Type} (lt : κ → κ → Prop) [DecidableRel lt] (key : ρ → κ)

/-- Past the key of the last row read. -/
def Past (after : Option κ) (k : κ) : Prop := ∀ a ∈ after, lt a k

instance (after : Option κ) (k : κ) : Decidable (Past lt after k) :=
  match after with
  | none => .isTrue fun _ h => by cases h
  | some a => decidable_of_iff (lt a k) (by simp [Past])

/-- The rows past a key, in order. -/
def ordered (after : Option κ) (rows : List ρ) : List ρ :=
  (rows.filter fun r => Past lt after (key r)).insertionSort fun a b => ¬ lt (key b) (key a)

/-- `WHERE key > after ORDER BY key LIMIT count`. -/
def select (after : Option κ) (count : ℕ) (rows : List ρ) : List ρ :=
  (ordered lt key after rows).take count

/-- The rows of a page, and the key to go on from: one row more than fits says that there is one. -/
def page (limit : ℕ) (after : Option κ) (rows : List ρ) : List ρ × Option κ :=
  let got := select lt key after (limit + 1) rows
  if limit < got.length then (got.take limit, (got.take limit).getLast?.map key) else (got, none)

/-- The pages of at most `n` reads, the first of them from the rows at time `i`. -/
def walk (limit : ℕ) (rows : ℕ → List ρ) : (n i : ℕ) → (after : Option κ) → List (List ρ × Option κ)
  | 0, _, _ => []
  | n + 1, i, after =>
    let p := page lt key limit after (rows i)
    match p.2 with
    | none => [p]
    | some k => p :: walk limit rows n (i + 1) (some k)

/-- The rows of some pages. -/
def visited (pages : List (List ρ × Option κ)) : List ρ := pages.flatMap (·.1)

/-- No page comes after these. -/
def Finished (pages : List (List ρ × Option κ)) : Prop := ∃ p ∈ pages, p.2 = none

variable {lt key} {after : Option κ} {rows : List ρ} {limit : ℕ}

theorem mem_ordered {r : ρ} : r ∈ ordered lt key after rows ↔ r ∈ rows ∧ Past lt after (key r) := by
  simp [ordered, List.mem_insertionSort]

/-- What a page has: its rows in order, all of them past the key it started from, and none left out
up to the key to go on from. -/
structure IsPage (lt : κ → κ → Prop) (key : ρ → κ) (after : Option κ) (rows items : List ρ)
    (next : Option κ) : Prop where
  sorted : items.Pairwise fun a b => lt (key a) (key b)
  mem : ∀ r ∈ items, r ∈ rows ∧ Past lt after (key r)
  covers : ∀ r ∈ rows, Past lt after (key r) → r ∈ items ∨ ∃ k ∈ next, lt k (key r)
  upTo : ∀ k ∈ next, (∀ r ∈ items, ¬ lt k (key r)) ∧ ∃ r ∈ items, key r = k

variable [IsStrictTotalOrder κ lt]

omit [DecidableRel lt] in
theorem lt_of_not_lt_of_lt {a b c : κ} (hab : ¬ lt b a) (hbc : lt b c) : lt a c := by
  rcases trichotomous_of lt a b with h | rfl | h
  · exact trans_of lt h hbc
  · exact hbc
  · exact absurd h hab

theorem pairwise_ordered (hunique : (rows.map key).Nodup) :
    (ordered lt key after rows).Pairwise fun a b => lt (key a) (key b) := by
  have htotal : Std.Total fun a b : ρ => ¬ lt (key b) (key a) :=
    ⟨fun a b => or_iff_not_imp_left.mpr fun h => asymm_of lt (not_not.mp h)⟩
  have htrans : IsTrans ρ fun a b => ¬ lt (key b) (key a) :=
    ⟨fun a b c hab hbc hca => by
      rcases trichotomous_of lt (key b) (key a) with h | h | h
      · exact hab h
      · exact hbc (h ▸ hca)
      · exact hbc (trans_of lt hca h)⟩
  have hsorted : (ordered lt key after rows).Pairwise fun a b => ¬ lt (key b) (key a) :=
    List.pairwise_insertionSort _ _
  have hnodup : ((ordered lt key after rows).map key).Nodup :=
    ((List.perm_insertionSort _ _).map key).nodup_iff.mpr
      (hunique.sublist (List.filter_sublist.map key))
  refine (hsorted.and (List.pairwise_map.mp hnodup)).imp fun {a b} h => ?_
  rcases trichotomous_of lt (key a) (key b) with hlt | heq | hgt
  · exact hlt
  · exact absurd heq h.2
  · exact absurd hgt h.1

/-- **What a page has.** -/
theorem isPage_page (lt : κ → κ → Prop) [DecidableRel lt] [IsStrictTotalOrder κ lt] (key : ρ → κ)
    (after : Option κ) (hlimit : 0 < limit) (hunique : (rows.map key).Nodup) :
    IsPage lt key after rows (page lt key limit after rows).1 (page lt key limit after rows).2 := by
  obtain ⟨all, hall⟩ : ∃ all, all = ordered lt key after rows := ⟨_, rfl⟩
  have hsorted : all.Pairwise fun a b => lt (key a) (key b) := hall ▸ pairwise_ordered hunique
  have hmem : ∀ r, r ∈ all ↔ r ∈ rows ∧ Past lt after (key r) := fun r => hall ▸ mem_ordered
  unfold page select
  rw [← hall]
  by_cases hmore : limit < (all.take (limit + 1)).length
  · rw [if_pos hmore, List.take_take, min_eq_left (Nat.le_succ limit)]
    rw [List.length_take] at hmore
    obtain ⟨init, last, hlast⟩ : ∃ init last, all.take limit = init ++ [last] := by
      refine (List.eq_nil_or_concat' _).resolve_left fun hnil => ?_
      have hlength := congrArg List.length hnil
      rw [List.length_take, List.length_nil] at hlength
      omega
    have hsplit := List.take_append_drop limit all
    rw [← hsplit, List.pairwise_append] at hsorted
    obtain ⟨hitems, -, hbefore⟩ := hsorted
    have hnext : (all.take limit).getLast?.map key = some (key last) := by
      rw [hlast, List.getLast?_concat]
      rfl
    have hmemLast : last ∈ all.take limit := by
      rw [hlast]
      exact List.mem_append_right _ List.mem_cons_self
    refine ⟨hitems, fun r hr => (hmem r).mp (List.mem_of_mem_take hr), fun r hr hpast => ?_,
      fun k hk => ?_⟩
    · have hr := (hmem r).mpr ⟨hr, hpast⟩
      rw [← hsplit] at hr
      exact (List.mem_append.mp hr).imp_right fun hdrop =>
        ⟨key last, hnext, hbefore last hmemLast r hdrop⟩
    · obtain rfl : key last = k := Option.some_inj.mp (hnext.symm.trans hk)
      refine ⟨fun r hr => ?_, last, hmemLast, rfl⟩
      rw [hlast] at hr hitems
      rcases List.mem_append.mp hr with hr | hr
      · have hlt := (List.pairwise_append.mp hitems).2.2 r hr last List.mem_cons_self
        exact asymm_of lt hlt
      · rw [List.mem_singleton.mp hr]
        exact irrefl_of lt _
  · have hall' : all.take (limit + 1) = all := by
      rw [List.length_take] at hmore
      exact List.take_of_length_le (by omega)
    rw [if_neg hmore, hall']
    exact ⟨hsorted, fun r hr => (hmem r).mp hr, fun r hr hpast => Or.inl ((hmem r).mpr ⟨hr, hpast⟩),
      fun k hk => by cases hk⟩

/-! ### Walks -/

section Walk
variable {tables : ℕ → List ρ}

omit [IsStrictTotalOrder κ lt] in
theorem walk_succ (n i : ℕ) (after : Option κ) : walk lt key limit tables (n + 1) i after =
    page lt key limit after (tables i) :: match (page lt key limit after (tables i)).2 with
      | none => []
      | some k => walk lt key limit tables n (i + 1) (some k) := by
  rw [walk]
  split <;> rfl

/-- A walk starts past its cursor. -/
theorem past_of_mem_walk (hlimit : 0 < limit) (hunique : ∀ i, ((tables i).map key).Nodup) {r : ρ} :
    ∀ (n : ℕ) {i : ℕ} {after : Option κ}, r ∈ visited (walk lt key limit tables n i after) →
      Past lt after (key r)
  | 0, _, _, h => by cases h
  | n + 1, i, after, h => by
    have hpage := isPage_page lt key after hlimit (hunique i)
    rw [walk_succ, visited, List.flatMap_cons] at h
    rcases List.mem_append.mp h with h | h
    · exact (hpage.mem r h).2
    · split at h
      · cases h
      · rename_i k hk
        obtain ⟨-, last, hlast, rfl⟩ := hpage.upTo k hk
        have hpast := past_of_mem_walk hlimit hunique n h (key last) rfl
        exact fun a ha => trans_of lt ((hpage.mem last hlast).2 a ha) hpast

/-- **The rows of a walk are in order.** -/
theorem walk_sorted (hlimit : 0 < limit) (hunique : ∀ i, ((tables i).map key).Nodup) :
    ∀ (n i : ℕ) (after : Option κ), (visited (walk lt key limit tables n i after)).Pairwise
      fun a b => lt (key a) (key b)
  | 0, _, _ => .nil
  | n + 1, i, after => by
    have hpage := isPage_page lt key after hlimit (hunique i)
    rw [walk_succ, visited, List.flatMap_cons, List.pairwise_append]
    refine ⟨hpage.sorted, ?_, fun r hr r' hr' => ?_⟩
    · split
      · exact .nil
      · exact walk_sorted hlimit hunique n (i + 1) _
    · split at hr'
      · cases hr'
      · rename_i k hk
        have hpast := past_of_mem_walk hlimit hunique n hr' k rfl
        exact lt_of_not_lt_of_lt ((hpage.upTo k hk).1 r hr) hpast

theorem mem_of_mem_walk (hlimit : 0 < limit) (hunique : ∀ i, ((tables i).map key).Nodup) {r : ρ} :
    ∀ (n : ℕ) {i : ℕ} {after : Option κ}, r ∈ visited (walk lt key limit tables n i after) →
      ∃ j < i + n, r ∈ tables j
  | 0, _, _, h => by cases h
  | n + 1, i, after, h => by
    have hpage := isPage_page lt key after hlimit (hunique i)
    rw [walk_succ, visited, List.flatMap_cons] at h
    rcases List.mem_append.mp h with h | h
    · exact ⟨i, by omega, (hpage.mem r h).1⟩
    · split at h
      · cases h
      · obtain ⟨j, hj, hr⟩ := mem_of_mem_walk hlimit hunique n h
        exact ⟨j, by omega, hr⟩

/-- **A walk that ended has every row** that was past its cursor at its start. -/
theorem walk_covers (hlimit : 0 < limit) (hunique : ∀ i, ((tables i).map key).Nodup)
    (hinsert : ∀ i, tables i ⊆ tables (i + 1)) {r : ρ} :
    ∀ (n : ℕ) {i : ℕ} {after : Option κ}, Finished (walk lt key limit tables n i after) →
      r ∈ tables i → Past lt after (key r) → r ∈ visited (walk lt key limit tables n i after)
  | 0, _, _, hfinished, _, _ => by
    obtain ⟨p, hp, -⟩ := hfinished
    cases hp
  | n + 1, i, after, hfinished, hr, hpast => by
    have hpage := isPage_page lt key after hlimit (hunique i)
    rw [walk_succ] at hfinished ⊢
    rw [visited, List.flatMap_cons, List.mem_append]
    refine (hpage.covers r hr hpast).imp_right fun ⟨k, hk, hlt⟩ => ?_
    have hnext : (page lt key limit after (tables i)).2 = some k := hk
    obtain ⟨p, hp, hnone⟩ := hfinished
    simp only [hnext] at hp ⊢
    rcases List.mem_cons.mp hp with rfl | hp
    · cases hnext.symm.trans hnone
    · exact walk_covers hlimit hunique hinsert n ⟨p, hp, hnone⟩ (hinsert i hr)
        fun a ha => Option.mem_some_iff.mp ha ▸ hlt

/-- The rows that are left to read. -/
def left (lt : κ → κ → Prop) [DecidableRel lt] (key : ρ → κ) (after : Option κ) (rows : List ρ) : ℕ :=
  (rows.filter fun r => Past lt after (key r)).length

/-- A page that is not the last one leaves fewer rows. -/
theorem left_lt (hlimit : 0 < limit) (hunique : (rows.map key).Nodup) {k : κ}
    (hk : (page lt key limit after rows).2 = some k) :
    left lt key (some k) rows < left lt key after rows := by
  have hpage := isPage_page lt key after hlimit hunique
  obtain ⟨-, last, hlast, rfl⟩ := hpage.upTo k hk
  obtain ⟨hmem, hpast⟩ := hpage.mem last hlast
  have hfilter : rows.filter (fun r => Past lt (some (key last)) (key r)) =
      (rows.filter fun r => Past lt after (key r)).filter fun r => Past lt (some (key last)) (key r) := by
    rw [List.filter_filter]
    refine List.filter_congr fun r _ => ?_
    rw [Bool.eq_iff_iff, Bool.and_eq_true, decide_eq_true_eq, decide_eq_true_eq]
    refine (and_iff_left_of_imp fun h a ha => ?_).symm
    exact trans_of lt (hpast a ha) (h (key last) rfl)
  unfold left
  rw [hfilter, List.length_filter_lt_length_iff_exists]
  refine ⟨last, List.mem_filter.mpr ⟨hmem, decide_eq_true hpast⟩, ?_⟩
  rw [decide_eq_true_eq]
  exact fun h => irrefl_of lt _ (h (key last) rfl)

theorem walk_finished (hlimit : 0 < limit) (hunique : ∀ i, ((tables i).map key).Nodup)
    {rows : List ρ} : ∀ (n i : ℕ) (after : Option κ), (∀ j ≥ i, tables j = rows) →
      left lt key after rows < n → Finished (walk lt key limit tables n i after)
  | 0, _, _, _, h => absurd h (Nat.not_lt_zero _)
  | n + 1, i, after, hstable, h => by
    rw [walk_succ]
    cases hnext : (page lt key limit after (tables i)).2 with
    | none => exact ⟨_, List.mem_cons_self, hnext⟩
    | some k =>
      have hless := left_lt hlimit (hunique i) hnext
      rw [hstable i le_rfl] at hless
      obtain ⟨p, hp, hnone⟩ := walk_finished hlimit hunique n (i + 1) (some k)
        (fun j hj => hstable j (by omega)) (by omega)
      exact ⟨p, List.mem_cons_of_mem _ hp, hnone⟩

/-- **A walk ends** when the insertions do. -/
theorem exists_walk_finished (hlimit : 0 < limit) (hunique : ∀ i, ((tables i).map key).Nodup) :
    ∀ (m : ℕ) {i : ℕ} (after : Option κ), (∀ j ≥ i + m, tables j = tables (i + m)) →
      ∃ n, Finished (walk lt key limit tables n i after)
  | 0, i, after, hstable =>
    ⟨left lt key after (tables i) + 1, walk_finished hlimit hunique _ i after hstable (Nat.lt_succ_self _)⟩
  | m + 1, i, after, hstable => by
    cases hnext : (page lt key limit after (tables i)).2 with
    | none => exact ⟨1, _, by rw [walk_succ]; exact List.mem_cons_self, hnext⟩
    | some k =>
      obtain ⟨n, p, hp, hnone⟩ := exists_walk_finished hlimit hunique m (i := i + 1) (some k)
        fun j hj => by
          have hlast : i + (m + 1) = i + 1 + m := by omega
          exact hlast ▸ hstable j (by omega)
      refine ⟨n + 1, p, ?_, hnone⟩
      rw [walk_succ]
      simp only [hnext]
      exact List.mem_cons_of_mem _ hp

end Walk

end Trueup.Lib.Keyset
