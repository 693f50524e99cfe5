import Mathlib.Algebra.Order.BigOperators.Group.List
import Mathlib.Data.Int.Order.Basic
import Mathlib.Data.List.Nodup
import Mathlib.Tactic.Ring

/-! # Keyed tables

A table is a list of rows with pairwise different keys, in the order of insertion. `insert` refuses
a row whose key is taken, `set` replaces the row of its key, `erase` deletes it, `find` reads it.

`total g` sums `g` over the rows. An insertion adds the new row's share (`total_insert`), a
replacement exchanges the old row's share for the new one's (`total_set`). -/

namespace Trueup.Lib

/-- Rows with pairwise different keys. -/
structure Table {κ ρ : Type} (key : ρ → κ) where
  rows : List ρ
  nodup : (rows.map key).Nodup

namespace Table

variable {κ ρ : Type} {key : ρ → κ}

/-- The table of one row. -/
def singleton (row : ρ) : Table key := ⟨[row], List.nodup_singleton _⟩

@[ext] theorem ext {t u : Table key} (h : t.rows = u.rows) : t = u := by
  cases t; cases u; cases h; rfl

instance [DecidableEq ρ] : DecidableEq (Table key) := fun t u =>
  decidable_of_iff (t.rows = u.rows) ⟨ext, fun h => h ▸ rfl⟩

/-- The table without rows. -/
def empty : Table key := ⟨[], by simp⟩

instance : EmptyCollection (Table key) := ⟨empty⟩

instance : Inhabited (Table key) := ⟨empty⟩

@[simp] theorem rows_empty : (∅ : Table key).rows = [] := rfl

instance : Membership ρ (Table key) := ⟨fun t r => r ∈ t.rows⟩

theorem mem_iff {t : Table key} {r : ρ} : r ∈ t ↔ r ∈ t.rows := Iff.rfl

theorem eq_of_key_eq {t : Table key} {r r' : ρ} (h : r ∈ t) (h' : r' ∈ t) (hk : key r = key r') :
    r = r' := List.inj_on_of_nodup_map t.nodup h h' hk

/-- The key is taken. -/
def Has (t : Table key) (k : κ) : Prop := k ∈ t.rows.map key

theorem has_of_mem {t : Table key} {r : ρ} (h : r ∈ t) : t.Has (key r) :=
  List.mem_map_of_mem h

theorem has_iff {t : Table key} {k : κ} : t.Has k ↔ ∃ r ∈ t, key r = k := by
  simp [Has, mem_iff]

/-- The sum of `g` over the rows. -/
def total (t : Table key) (g : ρ → ℤ) : ℤ := (t.rows.map g).sum

theorem total_congr {t : Table key} {g g' : ρ → ℤ} (h : ∀ r ∈ t, g r = g' r) :
    t.total g = t.total g' := by
  unfold total; rw [List.map_congr_left h]

theorem total_nonneg {t : Table key} {g : ρ → ℤ} (h : ∀ r ∈ t, 0 ≤ g r) : 0 ≤ t.total g := by
  refine List.sum_nonneg fun x hx => ?_
  obtain ⟨r, hr, rfl⟩ := List.mem_map.mp hx
  exact h r hr

variable [DecidableEq κ]

/-- The row of a key. -/
def find (t : Table key) (k : κ) : Option ρ := t.rows.find? fun r => key r = k

instance (t : Table key) (k : κ) : Decidable (t.Has k) := by unfold Has; infer_instance

/-- The table with one more row, if its key is free. -/
def insert (t : Table key) (r : ρ) : Option (Table key) :=
  if h : t.Has (key r) then none
  else some ⟨t.rows ++ [r], by
    rw [List.map_append, List.nodup_append]
    refine ⟨t.nodup, by simp, ?_⟩
    intro a ha b hb hab
    simp only [List.map_cons, List.map_nil, List.mem_singleton] at hb
    exact h (by unfold Has; rw [← hb, ← hab]; exact ha)⟩

/-- The table in which the row of the key of `r` is replaced by `r`. -/
def set (t : Table key) (r : ρ) : Table key :=
  ⟨t.rows.map fun r' => if key r' = key r then r else r', by
    rw [List.map_map]
    have : (key ∘ fun r' => if key r' = key r then r else r') = key := by
      funext r'
      simp only [Function.comp_apply]
      split_ifs with h
      · exact h.symm
      · rfl
    rw [this]
    exact t.nodup⟩

/-- The table with the row, in place of the row of its key if there is one. -/
def upsert (t : Table key) (r : ρ) : Table key := (t.insert r).getD (t.set r)

/-- The table without the row of a key. -/
def erase (t : Table key) (k : κ) : Table key :=
  ⟨t.rows.filter fun r => key r ≠ k, t.nodup.sublist (List.filter_sublist.map key)⟩

/-! ### Reading -/

theorem find_eq_some {t : Table key} {k : κ} {r : ρ} :
    t.find k = some r ↔ r ∈ t ∧ key r = k := by
  constructor
  · intro h
    exact ⟨List.mem_of_find?_eq_some h, by simpa using List.find?_some h⟩
  · rintro ⟨hr, rfl⟩
    cases h : t.find (key r) with
    | none => exact absurd (List.find?_eq_none.mp h r hr) (by simp)
    | some r' =>
      have h1 : r' ∈ t := List.mem_of_find?_eq_some h
      have h2 : key r' = key r := by simpa using List.find?_some h
      rw [eq_of_key_eq h1 hr h2]

theorem length_filter_key_le_one (t : Table key) (k : κ) :
    (t.rows.filter fun r => key r = k).length ≤ 1 := by
  have hcount : (t.rows.map key).count k ≤ 1 := List.nodup_iff_count_le_one.mp t.nodup k
  rw [List.count, List.countP_map, List.countP_eq_length_filter] at hcount
  exact hcount

theorem find_eq_none {t : Table key} {k : κ} : t.find k = none ↔ ¬ t.Has k := by
  simp [find, Has, List.find?_eq_none]

/-! ### Insertion -/

theorem insert_eq_some {t u : Table key} {r : ρ} :
    t.insert r = some u ↔ ¬ t.Has (key r) ∧ u.rows = t.rows ++ [r] := by
  unfold insert
  split_ifs with h
  · simp [h]
  · constructor
    · intro e; cases e; exact ⟨h, rfl⟩
    · rintro ⟨-, e⟩; exact congrArg some (Table.ext e.symm)

theorem insert_eq_none {t : Table key} {r : ρ} : t.insert r = none ↔ t.Has (key r) := by
  unfold insert
  split_ifs with h
  · simp [h]
  · simp [h]

theorem exists_insert {t : Table key} {r : ρ} (h : ¬ t.Has (key r)) : ∃ u, t.insert r = some u :=
  Option.ne_none_iff_exists'.mp (mt insert_eq_none.mp h)

theorem rows_insert {t u : Table key} {r : ρ} (h : t.insert r = some u) :
    u.rows = t.rows ++ [r] := (insert_eq_some.mp h).2

theorem mem_insert {t u : Table key} {r r' : ρ} (h : t.insert r = some u) :
    r' ∈ u ↔ r' ∈ t ∨ r' = r := by
  rw [mem_iff, rows_insert h]; simp [mem_iff]

theorem has_insert {t u : Table key} {r : ρ} (h : t.insert r = some u) (k : κ) :
    u.Has k ↔ t.Has k ∨ k = key r := by
  simp [Has, rows_insert h]

theorem find_insert {t u : Table key} {r : ρ} (h : t.insert r = some u) (k : κ) :
    u.find k = if key r = k then some r else t.find k := by
  have hfree := (insert_eq_some.mp h).1
  unfold find
  rw [rows_insert h, List.find?_append]
  split_ifs with hk
  · have : t.find k = none := find_eq_none.mpr (hk ▸ hfree)
    rw [show List.find? (fun r => decide (key r = k)) t.rows = none from this]
    simp [hk]
  · simp [hk]

theorem find_insert_of_has {t u : Table key} {r : ρ} (h : t.insert r = some u) {k : κ} (hk : t.Has k) :
    u.find k = t.find k := by
  rw [find_insert h, if_neg]
  rintro rfl
  exact (insert_eq_some.mp h).1 hk

/-! ### Replacement -/

section Set
variable {t : Table key} {r : ρ}

theorem rows_set : (t.set r).rows = t.rows.map fun r' => if key r' = key r then r else r' := rfl

theorem keys_set : (t.set r).rows.map key = t.rows.map key := by
  rw [rows_set, List.map_map]
  congr 1
  funext r'
  simp only [Function.comp_apply]
  split_ifs with h
  · exact h.symm
  · rfl

@[simp] theorem has_set (k : κ) : (t.set r).Has k ↔ t.Has k := by
  unfold Has; rw [keys_set]

theorem mem_set {r' : ρ} : r' ∈ t.set r ↔ (r' ∈ t ∧ key r' ≠ key r) ∨ (r' = r ∧ t.Has (key r)) := by
  rw [mem_iff, rows_set, List.mem_map]
  constructor
  · rintro ⟨r0, h0, rfl⟩
    split_ifs with h
    · exact Or.inr ⟨rfl, h ▸ has_of_mem h0⟩
    · exact Or.inl ⟨h0, h⟩
  · rintro (⟨h, hne⟩ | ⟨rfl, h⟩)
    · exact ⟨r', h, if_neg hne⟩
    · obtain ⟨r0, h0, hk⟩ := has_iff.mp h
      exact ⟨r0, h0, if_pos hk⟩

theorem mem_set_self {r₀ : ρ} (h : r₀ ∈ t) (hk : key r₀ = key r) : r ∈ t.set r :=
  mem_set.mpr (Or.inr ⟨rfl, hk ▸ has_of_mem h⟩)

/-- A row with a property is still there if the replacement keeps the property. -/
theorem exists_mem_set {P : ρ → Prop} {r₀ : ρ} (h₀ : r₀ ∈ t) (hk : key r₀ = key r)
    (hP : P r₀ → P r) (h : ∃ r' ∈ t, P r') : ∃ r' ∈ t.set r, P r' := by
  obtain ⟨r', hr', hPr'⟩ := h
  by_cases hkey : key r' = key r
  · obtain rfl := eq_of_key_eq hr' h₀ (hkey.trans hk.symm)
    exact ⟨r, mem_set_self hr' hkey, hP hPr'⟩
  · exact ⟨r', mem_set.mpr (Or.inl ⟨hr', hkey⟩), hPr'⟩

theorem map_set {β : Type} {f : ρ → β} {r₀ : ρ} (h₀ : r₀ ∈ t) (hk : key r₀ = key r)
    (hf : f r = f r₀) : (t.set r).rows.map f = t.rows.map f := by
  rw [rows_set, List.map_map]
  refine List.map_congr_left fun r' hr' => ?_
  simp only [Function.comp_apply]
  split_ifs with hkey
  · rw [hf, eq_of_key_eq hr' h₀ (hkey.trans hk.symm)]
  · rfl

/-- The replaced row stands where the old one stood. -/
theorem exists_rows_set {r₀ : ρ} (h₀ : r₀ ∈ t) (hk : key r₀ = key r) :
    ∃ front back, t.rows = front ++ r₀ :: back ∧ (t.set r).rows = front ++ r :: back ∧
      ∀ r' ∈ front ++ back, r' ∈ t ∧ key r' ≠ key r := by
  obtain ⟨front, back, hrows⟩ := List.append_of_mem h₀
  have hnodup := t.nodup
  rw [hrows, List.map_append, List.map_cons, List.nodup_middle, List.nodup_cons,
    ← List.map_append] at hnodup
  have hother : ∀ r' ∈ front ++ back, key r' ≠ key r := by
    intro r' hr' hkey
    rw [← hk] at hkey
    exact hnodup.1 (hkey ▸ List.mem_map_of_mem hr')
  have hsame : ∀ l : List ρ, (∀ r' ∈ l, key r' ≠ key r) →
      l.map (fun r' => if key r' = key r then r else r') = l := fun l hl => by
    conv_rhs => rw [← List.map_id l]
    exact List.map_congr_left fun r' hr' => if_neg (hl r' hr')
  refine ⟨front, back, hrows, ?_, fun r' hr' => ⟨?_, hother r' hr'⟩⟩
  · rw [rows_set, hrows, List.map_append, List.map_cons, if_pos hk,
      hsame front fun r' hr' => hother r' (List.mem_append_left _ hr'),
      hsame back fun r' hr' => hother r' (List.mem_append_right _ hr')]
  · rw [mem_iff, hrows]
    rcases List.mem_append.mp hr' with hr' | hr'
    · exact List.mem_append_left _ hr'
    · exact List.mem_append_right _ (List.mem_cons_of_mem _ hr')

theorem filter_set {p : ρ → Bool} {r₀ : ρ} (h₀ : r₀ ∈ t) (hk : key r₀ = key r) (hp₀ : p r₀ = false)
    (hp : p r = false) : (t.set r).rows.filter p = t.rows.filter p := by
  have hrow : ∀ r' ∈ t.rows, p r' = true → key r' ≠ key r := by
    intro r' hr' hpr' hkey
    rw [eq_of_key_eq hr' h₀ (hkey.trans hk.symm), hp₀] at hpr'
    cases hpr'
  rw [rows_set, List.filter_map]
  have hfilter : t.rows.filter (p ∘ fun r' => if key r' = key r then r else r') =
      t.rows.filter p := by
    refine List.filter_congr fun r' hr' => ?_
    simp only [Function.comp_apply]
    split_ifs with hkey
    · rw [hp, eq_of_key_eq hr' h₀ (hkey.trans hk.symm), hp₀]
    · rfl
  rw [hfilter]
  conv_rhs => rw [← List.map_id (t.rows.filter p)]
  refine List.map_congr_left fun r' hr' => ?_
  rw [List.mem_filter] at hr'
  exact if_neg (hrow r' hr'.1 hr'.2)

theorem set_self (h : r ∈ t) : t.set r = t := by
  refine Table.ext ?_
  rw [rows_set]
  conv_rhs => rw [← List.map_id t.rows]
  refine List.map_congr_left fun r' hr' => ?_
  split_ifs with hkey
  · exact eq_of_key_eq h hr' hkey.symm
  · rfl

theorem set_set {r' : ρ} (hk : key r = key r') : (t.set r).set r' = t.set r' := by
  refine Table.ext ?_
  rw [rows_set, rows_set, rows_set, List.map_map]
  refine List.map_congr_left fun r₀ _ => ?_
  simp only [Function.comp_apply, hk]
  by_cases hkey : key r₀ = key r'
  · rw [if_pos hkey, if_pos hk, if_pos hkey]
  · rw [if_neg hkey, if_neg hkey]

theorem find_set (h : t.Has (key r)) (k : κ) :
    (t.set r).find k = if key r = k then some r else t.find k := by
  split_ifs with hk
  · subst hk
    exact find_eq_some.mpr ⟨mem_set.mpr (Or.inr ⟨rfl, h⟩), rfl⟩
  · cases h' : t.find k with
    | none =>
      rw [find_eq_none] at h' ⊢
      rwa [has_set]
    | some r' =>
      obtain ⟨hr', rfl⟩ := find_eq_some.mp h'
      exact find_eq_some.mpr ⟨mem_set.mpr (Or.inl ⟨hr', fun e => hk e.symm⟩), rfl⟩

end Set

/-! ### Replacing by key -/

theorem mem_upsert_of_key {t : Table key} {r row : ρ} :
    (row ∈ t.upsert r ∧ key row = key r) ↔ row = r := by
  unfold upsert
  cases hinsert : t.insert r with
  | none =>
    have htaken := insert_eq_none.mp hinsert
    rw [Option.getD_none, mem_set]
    constructor
    · rintro ⟨⟨-, hne⟩ | ⟨rfl, -⟩, hkey⟩
      · exact absurd hkey hne
      · rfl
    · rintro rfl
      exact ⟨Or.inr ⟨rfl, htaken⟩, rfl⟩
  | some u =>
    rw [Option.getD_some, mem_insert hinsert]
    constructor
    · rintro ⟨hmem | rfl, hkey⟩
      · have hfree : ¬ t.Has (key r) := fun htaken => by
          rw [insert_eq_none.mpr htaken] at hinsert
          cases hinsert
        exact absurd (hkey ▸ has_of_mem hmem) hfree
      · rfl
    · rintro rfl
      exact ⟨Or.inr rfl, rfl⟩

/-! ### Deletion -/

theorem mem_erase {t : Table key} {k : κ} {r : ρ} : r ∈ t.erase k ↔ r ∈ t ∧ key r ≠ k := by
  simp [mem_iff, erase]

theorem find_erase (t : Table key) (k k' : κ) :
    (t.erase k).find k' = if k' = k then none else t.find k' := by
  split_ifs with hk
  · rw [find_eq_none, has_iff]
    rintro ⟨r, hr, hkey⟩
    exact (mem_erase.mp hr).2 (hkey.trans hk)
  · cases h : t.find k' with
    | none =>
      rw [find_eq_none, has_iff] at h ⊢
      rintro ⟨r, hr, hkey⟩
      exact h ⟨r, (mem_erase.mp hr).1, hkey⟩
    | some r =>
      obtain ⟨hr, hkey⟩ := find_eq_some.mp h
      exact find_eq_some.mpr ⟨mem_erase.mpr ⟨hr, hkey ▸ hk⟩, hkey⟩

/-! ### Totals -/

theorem total_insert {t u : Table key} {r : ρ} (h : t.insert r = some u) (g : ρ → ℤ) :
    u.total g = t.total g + g r := by
  simp [total, rows_insert h]

/-- The sum over a list in which one row, of a key no other row has, is replaced; the summand may
change at that row. -/
theorem sum_map_replace (r : ρ) {g g' : ρ → ℤ} {r₀ : ρ} (hk : key r₀ = key r) :
    ∀ {l : List ρ}, (l.map key).Nodup → r₀ ∈ l → (∀ r' ∈ l, key r' ≠ key r → g' r' = g r') →
      ((l.map fun r' => if key r' = key r then r else r').map g').sum =
        (l.map g).sum - g r₀ + g' r
  | [], _, h, _ => absurd h (by simp)
  | a :: l, hnd, h, hg => by
    simp only [List.map_cons, List.nodup_cons] at hnd
    simp only [List.map_cons, List.sum_cons]
    rcases List.mem_cons.mp h with rfl | hr
    · have hother : ∀ r' ∈ l, key r' ≠ key r := by
        intro r' hr' e
        exact hnd.1 (hk.trans e.symm ▸ List.mem_map_of_mem hr')
      have hrest : ((l.map fun r' => if key r' = key r then r else r').map g') = l.map g := by
        rw [List.map_map]
        refine List.map_congr_left fun r' hr' => ?_
        simp only [Function.comp_apply, if_neg (hother r' hr')]
        exact hg r' (by simp [hr']) (hother r' hr')
      rw [hrest, if_pos hk]
      ring
    · have hne : key a ≠ key r := fun e => hnd.1 (e.trans hk.symm ▸ List.mem_map_of_mem hr)
      rw [if_neg hne, sum_map_replace r hk hnd.2 hr fun r' hr' => hg r' (by simp [hr']),
        hg a (by simp) hne]
      ring

theorem total_set_congr {t : Table key} {r r₀ : ρ} (h : r₀ ∈ t) (hk : key r₀ = key r)
    {g g' : ρ → ℤ} (hg : ∀ r' ∈ t, key r' ≠ key r → g' r' = g r') :
    (t.set r).total g' = t.total g - g r₀ + g' r := by
  unfold total
  rw [rows_set]
  exact sum_map_replace r hk t.nodup h hg

theorem total_set {t : Table key} {r r₀ : ρ} (h : r₀ ∈ t) (hk : key r₀ = key r) (g : ρ → ℤ) :
    (t.set r).total g = t.total g - g r₀ + g r :=
  total_set_congr h hk fun _ _ _ => rfl

end Table

/-! ### Grouped sums -/

/-- A nonnegative figure, summed over the groups of some pairwise different keys, is at most its
sum over everything. -/
theorem sum_groups_le {κ ρ : Type} [DecidableEq κ] (key : ρ → κ) {f : ρ → ℤ} {l : List ρ}
    (hf : ∀ r ∈ l, 0 ≤ f r) : ∀ {ks : List κ}, ks.Nodup →
      (ks.map fun k => (l.map fun r => if key r = k then f r else 0).sum).sum ≤ (l.map f).sum := by
  induction l with
  | nil => intro ks _; simp
  | cons r l ih =>
    intro ks hks
    have hone : (ks.map fun k => if key r = k then f r else 0).sum ≤ f r := by
      clear ih
      induction ks with
      | nil => exact hf r (by simp)
      | cons k ks ihk =>
        rw [List.nodup_cons] at hks
        rw [List.map_cons, List.sum_cons]
        split_ifs with hk
        · have hrest : (ks.map fun k => if key r = k then f r else 0).sum = 0 := by
            refine List.sum_eq_zero fun x hx => ?_
            obtain ⟨k', hk', rfl⟩ := List.mem_map.mp hx
            exact if_neg fun e => hks.1 (hk.symm.trans e ▸ hk')
          omega
        · have := ihk hks.2
          omega
    have hrest := ih (fun r' hr' => hf r' (by simp [hr'])) hks
    simp only [List.map_cons, List.sum_cons, List.sum_map_add]
    omega

end Trueup.Lib
