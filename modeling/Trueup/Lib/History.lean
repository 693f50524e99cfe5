import Mathlib.Data.List.Sort
import Mathlib.Order.Basic

/-! # Append-only histories

Rows with a time of record, never changed once written. A reader wants the newest row (`latest`), or
the newest row as of a cutoff (`asOf`).

What is recorded after a cutoff does not change the answers as of it (`asOf_append`), and as of a
cutoff that nothing is recorded after, the answer is the newest row (`asOf_eq_latest`). -/

namespace Trueup.Lib.History

variable {α τ : Type} [LinearOrder τ] {time : α → τ}

/-- The newest row, the first of them in the order of the list. -/
def latest (time : α → τ) (rows : List α) : Option α :=
  (rows.insertionSort fun a b => time b ≤ time a).head?

/-- The newest row as of a cutoff. -/
def asOf (time : α → τ) (cutoff : τ) (rows : List α) : Option α :=
  latest time (rows.filter (time · ≤ cutoff))

theorem mem_of_latest {rows : List α} {a : α} (h : latest time rows = some a) :
    a ∈ rows ∧ ∀ b ∈ rows, time b ≤ time a := by
  have htrans : IsTrans α fun a b => time b ≤ time a := ⟨fun _ _ _ h h' => h'.trans h⟩
  have htotal : Std.Total fun a b : α => time b ≤ time a := ⟨fun a b => le_total (time b) (time a)⟩
  have hperm := rows.perm_insertionSort fun a b => time b ≤ time a
  have hsorted := rows.pairwise_insertionSort fun a b => time b ≤ time a
  cases hsort : rows.insertionSort fun a b => time b ≤ time a with
  | nil => rw [latest, hsort] at h; cases h
  | cons first rest =>
    rw [latest, hsort] at h
    cases h
    rw [hsort] at hperm hsorted
    refine ⟨hperm.subset (by simp), fun b hb => ?_⟩
    rcases List.mem_cons.mp (hperm.symm.subset hb) with rfl | hrest
    · exact le_rfl
    · exact (List.pairwise_cons.mp hsorted).1 b hrest

theorem latest_eq_none {rows : List α} : latest time rows = none ↔ rows = [] := by
  rw [latest, List.head?_eq_none_iff]
  constructor
  · intro h
    exact List.perm_nil.mp (h ▸ (rows.perm_insertionSort _).symm)
  · rintro rfl; rfl

theorem exists_latest {rows : List α} {a : α} (h : a ∈ rows) : ∃ b, latest time rows = some b := by
  cases hl : latest time rows with
  | some b => exact ⟨b, rfl⟩
  | none => rw [latest_eq_none.mp hl] at h; cases h

theorem latest_append_of_lt {rows : List α} {a : α} (h : ∀ b ∈ rows, time b < time a) :
    latest time (rows ++ [a]) = some a := by
  obtain ⟨b, hb⟩ : ∃ b, latest time (rows ++ [a]) = some b := exists_latest (a := a) (by simp)
  obtain ⟨hmem, hmax⟩ := mem_of_latest hb
  rcases List.mem_append.mp hmem with hold | hnew
  · exact absurd (hmax a (by simp)) (not_le.mpr (h b hold))
  · rw [hb, List.mem_singleton.mp hnew]

/-- What is recorded later leaves the answers as of a cutoff. -/
theorem asOf_append {cutoff : τ} {old new : List α} (h : ∀ b ∈ new, cutoff < time b) :
    asOf time cutoff (old ++ new) = asOf time cutoff old := by
  have hnew : new.filter (time · ≤ cutoff) = [] := by
    refine List.filter_eq_nil_iff.mpr fun b hb => ?_
    simpa using h b hb
  rw [asOf, List.filter_append, hnew, List.append_nil, asOf]

theorem asOf_eq_latest {cutoff : τ} {rows : List α} (h : ∀ b ∈ rows, time b ≤ cutoff) :
    asOf time cutoff rows = latest time rows := by
  rw [asOf, List.filter_eq_self.mpr fun b hb => by simpa using h b hb]

end Trueup.Lib.History
