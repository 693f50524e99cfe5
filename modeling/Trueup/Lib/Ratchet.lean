import Mathlib.Algebra.Order.Group.Defs
import Mathlib.Algebra.Order.Group.MinMax
import Mathlib.Data.List.Basic

/-! # A mark that only rises

Values come in one after the other. The mark is the greatest so far; a value above it gains the
difference, and the first value gains nothing. However the values go up and down, the gains add up
to the last mark less the first value (`Ratcheted.append`). -/

namespace Trueup.Lib.Ratchet

variable {α : Type*} [LinearOrder α] [AddCommGroup α] [IsOrderedAddMonoid α]

/-- The mark after a value. -/
def raise (mark : Option α) (value : α) : α := mark.elim value (max · value)

/-- What a value gains over the mark. -/
def gain (mark : Option α) (value : α) : α := mark.elim 0 fun mark => max 0 (value - mark)

omit [AddCommGroup α] [IsOrderedAddMonoid α] in
theorem max?_append (values : List α) (value : α) :
    (values ++ [value]).max? = some (raise values.max? value) := by
  cases values with
  | nil => rfl
  | cons first values => simp only [List.cons_append, List.max?_cons', List.foldl_append]; rfl

/-- The mark and the sum of the gains after some values. -/
structure Ratcheted (values : List α) (mark : Option α) (gains : α) : Prop where
  mark_eq : mark = values.max?
  gains_eq : gains = mark.getD 0 - values.head?.getD 0

omit [IsOrderedAddMonoid α] in
theorem Ratcheted.nil : Ratcheted ([] : List α) none 0 := ⟨rfl, (sub_self 0).symm⟩

/-- **One more value**: the mark is raised, and its gain is added. -/
theorem Ratcheted.append {values : List α} {mark : Option α} {gains : α}
    (h : Ratcheted values mark gains) (value : α) :
    Ratcheted (values ++ [value]) (some (raise mark value)) (gains + gain mark value) := by
  refine ⟨by rw [max?_append, h.mark_eq], ?_⟩
  have hgains := h.gains_eq
  cases hvalues : values with
  | nil =>
    have hnone : mark = none := by rw [h.mark_eq, hvalues]; rfl
    subst hnone
    simp [hgains, hvalues, raise, gain]
  | cons first rest =>
    obtain ⟨m, hm⟩ : ∃ m, mark = some m := ⟨_, by rw [h.mark_eq, hvalues]; rfl⟩
    subst hm
    have hraise : max m value = m + max 0 (value - m) := by
      rw [← max_add_add_left, add_zero, add_sub_cancel]
    simp only [hgains, hvalues, raise, gain, Option.elim_some, Option.getD_some, List.head?_cons,
      List.cons_append, hraise]
    exact sub_add_eq_add_sub _ _ _

end Trueup.Lib.Ratchet
