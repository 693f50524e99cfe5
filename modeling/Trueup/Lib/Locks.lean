import Mathlib.Logic.Basic
import Mathlib.Data.List.Basic

/-! # Locks

Who holds which key. A process takes keys that are free or its own, and gives back all it holds at
once.

* `Keeps`: what a process holds it still holds; it does whatever another process takes
  (`keeps_take_other`) or gives back (`keeps_release`).
* `keeps_of_take_other`, `keeps_of_release`: and it gets nothing by it.
* `freeFor_take`, `freeFor_release`: a process that is alone stays free to take any key. -/

namespace Trueup.Lib

/-- The holder of each key. -/
abbrev Locks (κ ι : Type) := κ → Option ι

namespace Locks

variable {κ ι : Type}

/-- The process may take the key. -/
def FreeFor (locks : Locks κ ι) (i : ι) (k : κ) : Prop := locks k = none ∨ locks k = some i

instance [DecidableEq ι] (locks : Locks κ ι) (i : ι) (k : κ) : Decidable (FreeFor locks i k) :=
  inferInstanceAs (Decidable (_ ∨ _))

/-- The process takes the keys. -/
def take [DecidableEq κ] (locks : Locks κ ι) (i : ι) (ks : List κ) : Locks κ ι :=
  fun k => if k ∈ ks then some i else locks k

/-- The process gives back what it holds. -/
def release [DecidableEq ι] (locks : Locks κ ι) (i : ι) : Locks κ ι :=
  fun k => if locks k = some i then none else locks k

/-- What the process holds it still holds. -/
def Keeps (locks locks' : Locks κ ι) (j : ι) : Prop := ∀ k, locks k = some j → locks' k = some j

theorem Keeps.refl (locks : Locks κ ι) (j : ι) : Keeps locks locks j := fun _ h => h

section Take
variable [DecidableEq κ] {locks : Locks κ ι} {i : ι} {ks : List κ}

theorem take_mem {k : κ} (hk : k ∈ ks) : take locks i ks k = some i := if_pos hk

theorem keeps_take_own : Keeps locks (take locks i ks) i := fun k hk => by
  unfold take
  split_ifs
  · rfl
  · exact hk

theorem keeps_take_other {j : ι} (hfree : ∀ k ∈ ks, FreeFor locks i k) (hij : i ≠ j) :
    Keeps locks (take locks i ks) j := fun k hk => by
  unfold take
  split_ifs with hmem
  · rcases hfree k hmem with hnone | hown
    · rw [hnone] at hk
      cases hk
    · exact absurd (Option.some.inj (hown.symm.trans hk)) hij
  · exact hk

/-- A process that takes keys gives none to another. -/
theorem keeps_of_take_other {j : ι} (hij : i ≠ j) : Keeps (take locks i ks) locks j := fun k hk => by
  unfold take at hk
  split_ifs at hk
  · exact absurd (Option.some.inj hk) hij
  · exact hk

/-- A process to which every key is free may still take every key. -/
theorem freeFor_take (hfree : ∀ k, FreeFor locks i k) (k : κ) : FreeFor (take locks i ks) i k := by
  unfold FreeFor take
  split_ifs
  · exact Or.inr rfl
  · exact hfree k

theorem take_singleton_self {k k' : κ} : take locks i [k] k' = some i ↔ k' = k ∨ locks k' = some i := by
  by_cases hk : k' = k <;> simp [take, hk]

end Take

section Release
variable [DecidableEq ι] {locks : Locks κ ι} {i j : ι}

theorem keeps_of_release : Keeps (release locks i) locks j := fun k hk => by
  unfold release at hk
  split_ifs at hk
  exact hk

theorem release_self (k : κ) : release locks i k ≠ some i := by
  unfold release
  split_ifs with hk
  · exact nofun
  · exact hk

theorem freeFor_release (hfree : ∀ k, FreeFor locks i k) (k : κ) : FreeFor (release locks i) i k := by
  unfold FreeFor release
  split_ifs
  · exact Or.inl rfl
  · exact hfree k

end Release

theorem keeps_release [DecidableEq ι] {locks : Locks κ ι} {i j : ι} (hij : i ≠ j) :
    Keeps locks (release locks i) j := fun k hk => by
  unfold release
  rw [if_neg fun hown => hij (Option.some.inj (hown.symm.trans hk))]
  exact hk

end Locks

end Trueup.Lib
