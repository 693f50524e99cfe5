import Trueup.Lib.Table

/-! # Tables whose rows are decided once

A row comes in undecided and is replaced once, by a decided row of its key; the log keeps the decided
rows in the order in which they were written.

* `Logged`: the log has each decided row, once, and nothing else.
* `Logged.insert`, `Logged.decide`: so it stays with a new row and with a decision, or with none.
* `Logged.filter_key`: what the log has of the key of a row is the row when it is decided, and nothing
  otherwise. -/

namespace Trueup.Lib

variable {κ ρ : Type} [DecidableEq κ] {key : ρ → κ} {Decided : ρ → Prop}

/-- The log has each decided row of the table once. -/
structure Logged (Decided : ρ → Prop) (t : Table key) (log : List ρ) : Prop where
  decided : ∀ r ∈ log, Decided r ∧ r ∈ t
  nodup : (log.map key).Nodup
  mem : ∀ r ∈ t, Decided r → r ∈ log

namespace Logged

variable {t u : Table key} {log : List ρ} {r old : ρ}

omit [DecidableEq κ] in
theorem empty : Logged Decided (∅ : Table key) [] :=
  ⟨fun _ h => absurd h List.not_mem_nil, List.nodup_nil, fun _ h => absurd h List.not_mem_nil⟩

theorem insert (h : Logged Decided t log) (hr : ¬ Decided r) (hinsert : t.insert r = some u) :
    Logged Decided u log where
  decided r' hr' := ⟨(h.decided r' hr').1, (Table.mem_insert hinsert).mpr (Or.inl (h.decided r' hr').2)⟩
  nodup := h.nodup
  mem r' hr' hdecided := by
    rcases (Table.mem_insert hinsert).mp hr' with hold | rfl
    · exact h.mem r' hold hdecided
    · exact absurd hdecided hr

omit [DecidableEq κ] in
/-- The log has nothing of the key of an undecided row. -/
theorem key_ne (h : Logged Decided t log) (hold : old ∈ t) (hundecided : ¬ Decided old) {r : ρ}
    (hr : r ∈ log) : key r ≠ key old := fun heq =>
  hundecided (Table.eq_of_key_eq (h.decided r hr).2 hold heq ▸ (h.decided r hr).1)

theorem decide (h : Logged Decided t log) (hold : old ∈ t) (hundecided : ¬ Decided old)
    (hkey : key r = key old) (hr : Decided r) : Logged Decided (t.set r) (log ++ [r]) where
  decided r' hr' := by
    rcases List.mem_append.mp hr' with hlog | hnew
    · refine ⟨(h.decided r' hlog).1, Table.mem_set.mpr (Or.inl ⟨(h.decided r' hlog).2, ?_⟩)⟩
      rw [hkey]
      exact h.key_ne hold hundecided hlog
    · rw [List.mem_singleton.mp hnew]
      exact ⟨hr, Table.mem_set_self hold hkey.symm⟩
  nodup := by
    rw [List.map_append]
    refine List.nodup_append'.mpr ⟨h.nodup, List.nodup_singleton _, fun k hlog hnew => ?_⟩
    obtain ⟨r', hr', rfl⟩ := List.mem_map.mp hlog
    rw [List.map_singleton, List.mem_singleton, hkey] at hnew
    exact h.key_ne hold hundecided hr' hnew
  mem r' hr' hdecided := by
    rcases Table.mem_set.mp hr' with ⟨hmem, -⟩ | ⟨rfl, -⟩
    · exact List.mem_append_left _ (h.mem r' hmem hdecided)
    · exact List.mem_append_right _ (List.mem_singleton_self _)

theorem write (h : Logged Decided t log) {w : Option ρ}
    (hw : ∀ r ∈ w, ∃ old ∈ t, ¬ Decided old ∧ key r = key old ∧ Decided r) :
    Logged Decided (w.elim t t.set) (log ++ w.toList) := by
  cases w with
  | none => simpa using h
  | some r =>
    obtain ⟨old, hold, hundecided, hkey, hr⟩ := hw r rfl
    exact h.decide hold hundecided hkey hr

/-- **What the log has of a row.** -/
theorem filter_key [DecidablePred Decided] (h : Logged Decided t log) (hr : r ∈ t) :
    (log.filter fun r' => key r' = key r) = if Decided r then [r] else [] := by
  have hof : ∀ r' ∈ log, key r' = key r → r' = r := fun r' hr' heq =>
    Table.eq_of_key_eq (h.decided r' hr').2 hr heq
  split_ifs with hdecided
  · have hall : ∀ r' ∈ log.filter fun r' => key r' = key r, r' = r := fun r' hr' =>
      hof r' (List.mem_filter.mp hr').1 (of_decide_eq_true (List.mem_filter.mp hr').2)
    have hnodup : (log.filter fun r' => key r' = key r).Nodup := (h.nodup.of_map _).filter _
    have hmem : r ∈ log.filter fun r' => key r' = key r :=
      List.mem_filter.mpr ⟨h.mem r hr hdecided, decide_eq_true rfl⟩
    rw [List.eq_replicate_of_mem hall] at hnodup hmem ⊢
    have hle := List.nodup_replicate.mp hnodup
    have hpos := List.length_pos_of_mem hmem
    rw [List.length_replicate] at hpos
    rw [le_antisymm hle hpos, List.replicate_one]
  · refine List.filter_eq_nil_iff.mpr fun r' hr' heq => hdecided ?_
    rw [← hof r' hr' (of_decide_eq_true heq)]
    exact (h.decided r' hr').1

end Logged

/-- A row stays, unless it is the one of the key that is written. -/
theorem mem_write {t : Table key} {w : Option ρ} {r : ρ} (h : r ∈ t) :
    r ∈ w.elim t t.set ∨ ∃ r', w = some r' ∧ key r' = key r ∧ r' ∈ w.elim t t.set := by
  cases w with
  | none => exact Or.inl h
  | some r' =>
    by_cases hkey : key r = key r'
    · exact Or.inr ⟨r', rfl, hkey.symm, Table.mem_set_self h hkey⟩
    · exact Or.inl (Table.mem_set.mpr (Or.inl ⟨h, hkey⟩))

end Trueup.Lib
